import ArithTree.Proofs.Results
import ArithTree.Proofs.Term.Lexing

/-!
# The brackets of a text and its tree

`Nests items nodes` says, without the stack of open Terms, that lexemes nest into a row of trees:
a bracket pair is a Term with what stands between the brackets below it, and any other lexeme is a
leaf.

* `Holds` : what the Terms around a place hold of the lexemes before it. One lexeme keeps it
  (`Holds.step`), hence a whole text does (`Holds.run`).
* `scan_eq_ok_iff` : the texts that have a tree are those whose lexemes nest, and the tree is the
  one they nest into.
-/

namespace ArithTree.Term

/-- The leaf that a lexeme makes, if it is no bracket. -/
def Placed.leaf? (item : Placed) : Option Node :=
  match item.lexeme with
  | .opening => none
  | .closing => none
  | .number d => some (.mk .number (.decimal d) item.position [])
  | .identifier name => some (.mk .identifier (.text name) item.position [])
  | .operator c => some (.mk .operator (.text c.toString) item.position [])

theorem not_term_of_leaf {item : Placed} {node : Node} (h : item.leaf? = some node) :
    node.kind ≠ .term := by
  obtain ⟨lexeme, p⟩ := item
  cases lexeme <;> cases h <;> simp [Node.kind]

/-- Lexemes with matching brackets, and the row of trees that they nest into. -/
inductive Nests : List Placed → List Node → Prop where
  | nil : Nests [] []
  | leaf {item : Placed} {node : Node} {items : List Placed} {nodes : List Node}
    (isLeaf : item.leaf? = some node) (more : Nests items nodes) :
    Nests (item :: items) (node :: nodes)
  | group {p q : Nat} {inner items : List Placed} {children nodes : List Node}
    (inside : Nests inner children) (more : Nests items nodes) :
    Nests (⟨.opening, p⟩ :: inner ++ ⟨.closing, q⟩ :: items) (.term p children :: nodes)

theorem Nests.append {items more : List Placed} {nodes others : List Node} (h : Nests items nodes)
    (hmore : Nests more others) : Nests (items ++ more) (nodes ++ others) := by
  induction h with
  | nil => exact hmore
  | leaf isLeaf _ ih => exact .leaf isLeaf ih
  | group inside _ _ ih =>
    rw [List.append_assoc, List.cons_append]
    exact .group inside ih

/-! ### Reading lexemes that nest -/

/-- More children for the innermost Term. -/
def Nesting.add (nesting : Nesting) (nodes : List Node) : Nesting :=
  { nesting with
    inner := { nesting.inner with children := nodes.reverse ++ nesting.inner.children } }

theorem Nesting.add_add (nesting : Nesting) (nodes more : List Node) :
    (nesting.add nodes).add more = nesting.add (nodes ++ more) := by
  simp [Nesting.add]

theorem Nesting.step_leaf {nesting : Nesting} {item : Placed} {node : Node}
    (h : item.leaf? = some node) : nesting.step item = .ok (nesting.add [node]) := by
  obtain ⟨lexeme, p⟩ := item
  cases lexeme with
  | opening => cases h
  | closing => cases h
  | number d => cases h; rfl
  | identifier name => cases h; rfl
  | operator c => cases h; rfl

theorem Nesting.run_cons {nesting next : Nesting} {item : Placed} {items : List Placed}
    (h : nesting.step item = .ok next) : nesting.run (item :: items) = next.run items := by
  rw [Nesting.run, h]
  rfl

theorem Nesting.run_of_nests {items : List Placed} {nodes : List Node} (h : Nests items nodes)
    (nesting : Nesting) (more : List Placed) :
    nesting.run (items ++ more) = (nesting.add nodes).run more := by
  induction h generalizing nesting more with
  | nil => rfl
  | leaf isLeaf _ ih =>
    rw [List.cons_append, Nesting.run_cons (Nesting.step_leaf isLeaf), ih, Nesting.add_add]
    rfl
  | @group p q inner items children nodes _ _ ihInside ih =>
    have hopen : nesting.step ⟨.opening, p⟩ = .ok ⟨⟨p, []⟩, nesting.inner :: nesting.outer⟩ := rfl
    have hclose : (Nesting.add ⟨⟨p, []⟩, nesting.inner :: nesting.outer⟩ children).step
        ⟨.closing, q⟩ = .ok (nesting.add [.term p children]) := by
      simp [Nesting.add, Nesting.step, OpenTerm.push, OpenTerm.close]
    rw [List.append_assoc, List.cons_append, Nesting.run_cons hopen, ihInside, List.cons_append,
      Nesting.run_cons hclose, ih, Nesting.add_add]
    rfl

/-! ### What the open Terms hold -/

/-- The lexemes before a place, the innermost Term there and the Terms around it: each Term holds
the trees of what stands between its opening bracket and the next one. -/
inductive Holds : List Placed → OpenTerm → List OpenTerm → Prop where
  | root {items : List Placed} {nodes : List Node} (nests : Nests items nodes) :
    Holds items ⟨0, nodes.reverse⟩ []
  | inside {before inner : List Placed} {p : Nat} {children : List Node} {next : OpenTerm}
    {outer : List OpenTerm} (around : Holds before next outer) (nests : Nests inner children) :
    Holds (before ++ ⟨.opening, p⟩ :: inner) ⟨p, children.reverse⟩ (next :: outer)

theorem Holds.add {before items : List Placed} {t : OpenTerm} {outer : List OpenTerm} {node : Node}
    (h : Holds before t outer) (hitems : Nests items [node]) :
    Holds (before ++ items) (t.push node) outer := by
  cases h with
  | @root _ nodes nests =>
    have := Holds.root (nests.append hitems)
    rwa [List.reverse_append] at this
  | @inside _ inner p children _ _ around nests =>
    have := Holds.inside (p := p) around (nests.append hitems)
    rwa [List.reverse_append, ← List.cons_append, ← List.append_assoc] at this

/-- One more lexeme keeps what the open Terms hold. -/
theorem Holds.step {before : List Placed} {nesting next : Nesting} {item : Placed}
    (h : Holds before nesting.inner nesting.outer) (hstep : nesting.step item = .ok next) :
    Holds (before ++ [item]) next.inner next.outer := by
  obtain ⟨lexeme, p⟩ := item
  have hleaf : ∀ {node : Node}, Placed.leaf? ⟨lexeme, p⟩ = some node →
      Holds (before ++ [⟨lexeme, p⟩]) next.inner next.outer := by
    intro node hnode
    rw [Nesting.step_leaf hnode] at hstep
    cases hstep
    exact h.add (.leaf hnode .nil)
  cases lexeme with
  | opening =>
    cases hstep
    exact h.inside .nil
  | closing =>
    obtain ⟨inner, outer⟩ := nesting
    cases h with
    | root => cases hstep
    | @inside before within q children _ _ around nests =>
      -- The bracket pair becomes one more node of the Term around it.
      cases hstep
      have := around.add (.group (p := q) (q := p) nests .nil)
      rwa [OpenTerm.close, List.reverse_reverse, List.append_assoc, List.cons_append]
  | number d => exact hleaf rfl
  | identifier name => exact hleaf rfl
  | operator c => exact hleaf rfl

theorem Holds.run {before items : List Placed} {nesting last : Nesting}
    (h : Holds before nesting.inner nesting.outer) (hrun : nesting.run items = .ok last) :
    Holds (before ++ items) last.inner last.outer := by
  induction items generalizing before nesting with
  | nil =>
    cases hrun
    rwa [List.append_nil]
  | cons item items ih =>
    rw [Nesting.run] at hrun
    obtain ⟨next, hstep, hrest⟩ := bind_eq_ok_iff.1 hrun
    have := ih (h.step hstep) hrest
    rwa [List.append_assoc] at this

theorem run_root_iff {items : List Placed} {inner : OpenTerm} :
    Nesting.root.run items = .ok ⟨inner, []⟩ ↔
      ∃ nodes, inner = ⟨0, nodes.reverse⟩ ∧ Nests items nodes := by
  constructor
  · intro h
    have hroot : Holds [] Nesting.root.inner Nesting.root.outer := .root .nil
    have := hroot.run h
    cases this with
    | root nests => exact ⟨_, rfl, nests⟩
  · rintro ⟨nodes, rfl, h⟩
    have := Nesting.run_of_nests h .root []
    rw [List.append_nil] at this
    rw [this]
    simp [Nesting.run, Nesting.add, Nesting.root]

/-- **The texts that have a tree are those whose lexemes nest.** -/
theorem scan_eq_ok_iff {text : String} {tree : Node} :
    scan text = .ok tree ↔
      ∃ items nodes b, Lexes (.start text) items b ∧ b.rest = [] ∧ Nests items nodes ∧
        tree = .term 0 nodes := by
  constructor
  · intro h
    rw [scan, Cursor.scan] at h
    cases hrun : Nesting.root.run (Cursor.start text).lex.lexemes with
    | error p => simp [hrun] at h
    | ok nesting =>
      obtain ⟨inner, outer⟩ := nesting
      cases houtcome : (Cursor.start text).lex.outcome with
      | error failure => simp [hrun, houtcome] at h
      | ok _ =>
        cases outer with
        | cons next outer => simp [hrun, houtcome] at h
        | nil =>
          simp only [hrun, houtcome, Except.ok.injEq] at h
          subst h
          obtain ⟨nodes, rfl, hnests⟩ := run_root_iff.1 hrun
          obtain ⟨hlexes, hend⟩ := lex_eq_iff.1
            (show (Cursor.start text).lex = ⟨_, .ok (), _⟩ by rw [← houtcome])
          refine ⟨_, nodes, _, hlexes, hend, hnests, ?_⟩
          rw [OpenTerm.close, List.reverse_reverse]
          rfl
  · rintro ⟨items, nodes, b, hlexes, hend, hnests, rfl⟩
    have hlex := lex_eq_iff.2 ⟨hlexes, hend⟩
    have hrun := run_root_iff.2 ⟨nodes, rfl, hnests⟩
    simp only [scan, Cursor.scan, hlex, hrun, OpenTerm.close, List.reverse_reverse]
    rfl

end ArithTree.Term
