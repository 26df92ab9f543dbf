import ArithTree.Proofs.Binary.Views
import ArithTree.Proofs.Display.Filling
import ArithTree.Proofs.Term.Line

/-!
# What rendering keeps

A tree is rendered node by node: what is shown has one node for each node of the tree that is
reached, with the children in the same order, and label and style are those of the one node alone.
Only a kind without a meaning is refused, and only where it is reached. A chart keeps the shape, and
an outline has one line for each node, in preorder.

* `Node.Reaches` : the nodes that are reached, which are those below Terms.
* `of_render` : what rendering decides is decided node by node.
* `Node.render_eq_ok_iff` : which term trees are shown, and how.
* `Display.chart_eq`, `Display.outline_eq` : charts and outlines by recursion.
* `rendering_eq_recursion` : all of it together.
-/

namespace ArithTree

/-! ### Induction on what is rendered -/

section

variable {τ ε : Type} [Renderable τ ε] {q : τ → Prop}

/-- What a tree inherits from the trees below it holds of all trees that are expanded. -/
theorem of_expandAll
    (hq : ∀ tree d, Renderable.describe tree = .ok d → (∀ below ∈ d.below, q below) → q tree)
    (trees : List τ) {ds : List (Description τ)} {shown : List Display}
    (hds : Display.describeAll trees = .ok ds) (h : Display.expandAll ds = .ok shown) :
    ∀ tree ∈ trees, q tree := by
  match trees with
  | [] => exact List.forall_mem_nil _
  | tree :: trees =>
    rw [Display.describeAll] at hds
    obtain ⟨d, hd, hrest⟩ := bind_eq_ok_iff.1 hds
    obtain ⟨laterDs, hlaterDs, rfl⟩ := map_eq_ok_iff.1 hrest
    rw [expandAll_cons] at h
    obtain ⟨later, hlater, htree⟩ := bind_eq_ok_iff.1 h
    obtain ⟨node, hnode, -⟩ := map_eq_ok_iff.1 htree
    obtain ⟨below, hbelow, hchildren⟩ := bind_eq_ok_iff.1 hnode
    obtain ⟨children, hchildren, -⟩ := map_eq_ok_iff.1 hchildren
    -- What is below a tree is smaller than the tree, and the later trees are fewer.
    have hsize := Renderable.size_below hd
    exact List.forall_mem_cons.2 ⟨hq tree d hd (of_expandAll hq d.below hbelow hchildren),
      of_expandAll hq trees hlaterDs hlater⟩
termination_by total Renderable.size trees
decreasing_by
  · simp only [total_cons]
    omega
  · have := Nat.zero_lt_of_lt hsize
    simp only [total_cons]
    omega

/-- What a tree inherits from the trees below it holds of every tree that is rendered. -/
theorem of_render
    (hq : ∀ tree d, Renderable.describe tree = .ok d → (∀ below ∈ d.below, q below) → q tree)
    {tree : τ} {shown : Display} (h : render tree = .ok shown) : q tree := by
  rw [render_eq_expand] at h
  obtain ⟨d, hd, hexpand⟩ := bind_eq_ok_iff.1 h
  obtain ⟨below, hbelow, hchildren⟩ := bind_eq_ok_iff.1 hexpand
  obtain ⟨children, hchildren, -⟩ := map_eq_ok_iff.1 hchildren
  exact hq tree d hd (of_expandAll hq d.below hbelow hchildren)

end

/-! ### Term trees -/

namespace Term.Node

/-- A node is reached from another one through Terms only. -/
inductive Reaches : Node → Node → Prop where
  | self (node : Node) : Reaches node node
  | child {node child inner : Node} (isTerm : node.kind = .term) (mem : child ∈ node.children)
    (reaches : Reaches child inner) : Reaches node inner

/-- All nodes that are reached have kinds with a meaning. -/
def AllKnown (tree : Node) : Prop := ∀ node, tree.Reaches node → node.kind ∈ kinds

theorem AllKnown.below {node : Node} (h : AllKnown node) (hterm : node.kind = .term) :
    ∀ child ∈ node.children, AllKnown child :=
  fun _ hchild inner hinner => h inner (.child hterm hchild hinner)

theorem display_of_kind {node : Node} (h : node.kind = .term) :
    node.display = ⟨"()", .term, node.children.map display⟩ := by
  obtain ⟨kind, payload, position, children⟩ := node
  have hkind : kind = .term := h
  rw [display, fold, if_pos hkind, foldAll_eq]
  rfl

theorem describe_term {node : Node} (h : node.kind = .term) :
    Renderable.describe node = .ok ⟨"()", .term, node.children⟩ := by
  show describe node = _
  rw [describe, h]

theorem describe_leaf {node : Node} (hkind : node.kind ∈ kinds) (h : node.kind ≠ .term) :
    Renderable.describe node = .ok ⟨node.payload.label, styleOf node.kind, []⟩ := by
  show describe node = _
  rw [describe]
  simp only [kinds, List.mem_cons, List.not_mem_nil, or_false] at hkind
  rcases hkind with hkind | hkind | hkind | hkind
  · exact absurd hkind h
  all_goals
    rw [hkind]
    rfl

theorem kind_mem_of_describe {node : Node} {d : Description Node}
    (h : Renderable.describe node = .ok d) : node.kind ∈ kinds := by
  have h : describe node = .ok d := h
  rw [describe] at h
  cases hkind : node.kind with
  | term | number | identifier | operator => simp [kinds]
  | other name unlisted =>
    rw [hkind] at h
    cases h

/-- **A term tree is shown exactly if all nodes that are reached have kinds with a meaning**, and
then it is shown node by node. -/
theorem render_eq_ok_iff {tree : Node} {shown : Display} :
    render tree = .ok shown ↔ AllKnown tree ∧ shown = tree.display := by
  have hshown {tree : Node} (h : AllKnown tree) : render tree = .ok tree.display := by
    refine render_eq_ok (p := AllKnown) (fun node hnode => ?_) h
    by_cases hterm : node.kind = .term
    · exact ⟨_, describe_term hterm, display_of_kind hterm, hnode.below hterm⟩
    · exact ⟨_, describe_leaf (hnode node (.self node)) hterm, display_leaf hterm,
        List.forall_mem_nil _⟩
  refine ⟨fun h => ?_, fun ⟨h, heq⟩ => heq ▸ hshown h⟩
  have hall : AllKnown tree := by
    refine of_render (fun node d hd hbelow inner hinner => ?_) h
    cases hinner with
    | self => exact kind_mem_of_describe hd
    | @child _ child _ hterm hchild hinner =>
      rw [describe_term hterm] at hd
      cases hd
      exact hbelow child hchild inner hinner
  rw [hshown hall] at h
  exact ⟨hall, (Except.ok.inj h).symm⟩

end Term.Node

namespace Display

/-! ### Charts and outlines -/

theorem charts_eq (nodes : List Display) : charts nodes = nodes.map chart := by
  induction nodes with
  | nil => rfl
  | cons node nodes ih => rw [charts, ih, List.map_cons]

/-- A chart has a list of children exactly where there are any. -/
theorem chart_eq (node : Display) :
    node.chart = ⟨node.label, node.style,
      if node.children = [] then none else some (node.children.map chart)⟩ := by
  obtain ⟨label, style, children⟩ := node
  cases children with
  | nil => rfl
  | cons child children =>
    rw [chart, charts_eq]
    rfl

/-- An outline has the labels in preorder, each behind the indentation of its depth. -/
theorem outline_eq (indent : String) (node : Display) :
    node.outline indent =
      "\n".intercalate ((node.rows 0).map fun row =>
        String.join (List.replicate row.1 indent) ++ row.2) := by
  have hrows : rowsAll 0 [node] = node.rows 0 := by
    rw [rowsAll, rowsAll, List.append_nil]
  rw [outline, outlineLines_node, hrows]
  rfl

end Display

/-! ### All of it together -/

/-- **Rendering, charts and outlines are recursions.** A term tree is shown exactly if all nodes
that are reached have kinds with a meaning, a binary tree always, and then the display tree is made
node by node; made in cells it is the same, and so are the errors. A chart keeps the shape and has a
list of children exactly where there are any, also if it is made in records. An outline has the
labels in preorder, each behind the indentation of its depth. -/
theorem rendering_eq_recursion :
    (∀ (tree : Term.Node) (shown : Display), render tree = .ok shown ↔
      (∀ node, tree.Reaches node → node.kind ∈ Term.Node.kinds) ∧ shown = tree.display) ∧
    (∀ tree : Binary.Expression, render tree = .ok (Binary.display tree)) ∧
    (∀ tree : Term.Node, Builds (renderInCells tree) (render tree)) ∧
    (∀ tree : Binary.Expression, Builds (renderInCells tree) (render tree)) ∧
    (∀ node : Display, node.chart = ⟨node.label, node.style,
      if node.children = [] then none else some (node.children.map Display.chart)⟩ ∧
      Drawn node.chartInCells 0 node.chart) ∧
    (∀ (node : Display) (indent : String), node.outline indent =
      "\n".intercalate ((node.rows 0).map fun row =>
        String.join (List.replicate row.1 indent) ++ row.2)) :=
  ⟨fun _ _ => Term.Node.render_eq_ok_iff, Binary.render_eq, builds_renderInCells,
    builds_renderInCells, fun node => ⟨node.chart_eq, drawn_chartInCells node⟩,
    fun node indent => node.outline_eq indent⟩

/-- A kind without a meaning is refused below a Term, and is not seen below a number. -/
theorem rendering_eq_recursion_unknown :
    let unknown : Term.Node := .mk (.other "blank" (by decide)) (.text "x") 0 []
    let number : Term.Node := .mk .number (.text "7") 0 [unknown]
    (∃ shown, render (Term.Node.term 0 [number]) = .ok shown ∧ shown.outline "--" = "()\n--7") ∧
      ∀ shown, render (Term.Node.term 0 [number, unknown]) ≠ .ok shown := by
  intro unknown number
  refine ⟨⟨_, (rendering_eq_recursion.1 _ _).2 ⟨?_, rfl⟩, ?_⟩, fun shown h => ?_⟩
  · intro node hnode
    cases hnode with
    | self => decide
    | child _ hmem hinner =>
      cases List.mem_singleton.1 hmem
      cases hinner with
      | self => decide
      | child hterm => cases hterm
  · rw [rendering_eq_recursion.2.2.2.2.2]
    decide
  · have hknown := ((rendering_eq_recursion.1 _ _).1 h).1 unknown
      (.child rfl (by simp [Term.Node.term, Term.Node.children]) (.self unknown))
    exact absurd hknown (by decide)

end ArithTree
