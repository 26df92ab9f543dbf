import ArithTree.Proofs.Term.Alternation
import ArithTree.Proofs.Term.Nesting

/-!
# Checking in a single pass

Whether operands and operators alternate can be told from the lexemes alone, in one pass from left
to right that keeps the places of the open brackets. The check of the tree goes another way, down
into each Term and back again, and finds the same fault.

* `Pass.step`, `Pass.finish` : what a lexeme and the end of the text do to the pass.
* `Pass.run_of_nests` : lexemes that nest take the pass through the check of their trees.
* `check_eq_pass` : the check of the tree of a text is the pass over its lexemes.
-/

namespace ArithTree.Term

/-- What stands last in the innermost open Term. -/
inductive Last where
  /-- Nothing yet. -/
  | nothing
  | operand
  | operator (position : Nat)
  deriving DecidableEq

/-- The state of the pass. -/
structure Pass where
  /-- What stands last in the innermost open Term. -/
  last : Last
  /-- The places where the open Terms begin, from the inside out. -/
  opened : List Nat
  deriving DecidableEq

namespace Pass

/-- The pass before the first lexeme: the root begins at the place 0. -/
def start : Pass := ⟨.nothing, [0]⟩

/-- The place where the innermost open Term begins. -/
def opening (pass : Pass) : Nat := pass.opened.headD 0

/-- A fault at a place. -/
def refuse {α : Type} (position : Nat) (cause : Cause) : Except Fault α :=
  .error ⟨cause, some position⟩

/-- The pass behind one more lexeme, or the fault that the lexeme shows. -/
def step (pass : Pass) (item : Placed) : Except Fault Pass :=
  match pass.last, item.lexeme with
  | .nothing, .operator _ => refuse item.position .leadingOperator
  | .nothing, .closing => refuse pass.opening .emptyBody
  | .operand, .operator _ => .ok { pass with last := .operator item.position }
  | .operand, .number _ => refuse item.position (.misplacedOperand "number")
  | .operand, .identifier _ => refuse item.position (.misplacedOperand "identifier")
  | .operand, .opening => refuse item.position (.misplacedOperand "term")
  | .operand, .closing => .ok ⟨.operand, pass.opened.tail⟩
  | .operator _, .operator _ => refuse item.position .doubledOperator
  | .operator position, .closing => refuse position .danglingOperator
  | _, .opening => .ok ⟨.nothing, item.position :: pass.opened⟩
  | _, .number _ => .ok { pass with last := .operand }
  | _, .identifier _ => .ok { pass with last := .operand }

/-- What the end of the text shows. -/
def finish (pass : Pass) : Except Fault Unit :=
  match pass.last with
  | .nothing => refuse pass.opening .emptyBody
  | .operand => .ok ()
  | .operator position => refuse position .danglingOperator

/-- The pass over lexemes and the end of the text behind them. -/
def run (pass : Pass) : List Placed → Except Fault Unit
  | [] => pass.finish
  | item :: items => (pass.step item).bind fun next => next.run items

/-! ### What the check says of the next node -/

/-- What the check of the innermost Term says of its next child, or of its end if there is none. -/
def expect (pass : Pass) (next? : Option Node) : Except Fault Unit :=
  match pass.last, next? with
  | .nothing, none => refuse pass.opening .emptyBody
  | .nothing, some next => if next.kind = .operator then next.fault .leadingOperator else .ok ()
  | .operand, none => .ok ()
  | .operand, some next =>
    if next.kind = .operator then .ok () else next.fault (.misplacedOperand next.kind.name)
  | .operator position, none => refuse position .danglingOperator
  | .operator _, some next =>
    if next.kind = .operator then next.fault .doubledOperator else .ok ()

/-- What stands last behind a child. -/
def Follows (node : Node) : Last → Prop
  | .nothing => False
  | .operand => node.kind = .term ∨ node.kind = .number ∨ node.kind = .identifier
  | .operator position => node.kind = .operator ∧ node.position = position

theorem checkBody_term (p : Nat) (opened : List Nat) (nodes : List Node) :
    (Node.term p nodes).checkBody = expect ⟨.nothing, p :: opened⟩ nodes.head? := by
  cases nodes <;> rfl

theorem checkNeighbour_follows {node : Node} (pass : Pass) (h : Follows node pass.last)
    (next? : Option Node) : node.checkNeighbour next? = pass.expect next? := by
  obtain ⟨last, opened⟩ := pass
  unfold Node.checkNeighbour
  cases last with
  | nothing => exact h.elim
  | operand =>
    rcases h with h | h | h <;> rw [h] <;> cases next? <;> rfl
  | operator position =>
    obtain ⟨hkind, hposition⟩ := h
    rw [hkind]
    cases next? with
    | none =>
      rw [Node.fault, hposition]
      rfl
    | some next => rfl

/-! ### Lexemes that nest -/

/-- A leaf is refused as the next node of the innermost Term, or stands last in it. -/
theorem step_leaf {item : Placed} {node : Node} (h : item.leaf? = some node) (pass : Pass) :
    ∃ last, Follows node last ∧
      pass.step item = (pass.expect (some node)).map fun _ => { pass with last := last } := by
  obtain ⟨lexeme, p⟩ := item
  obtain ⟨last, opened⟩ := pass
  cases lexeme with
  | opening => cases h
  | closing => cases h
  | number d =>
    cases h
    refine ⟨.operand, .inr (.inl rfl), ?_⟩
    cases last <;> rfl
  | identifier name =>
    cases h
    refine ⟨.operand, .inr (.inr rfl), ?_⟩
    cases last <;> rfl
  | operator c =>
    cases h
    refine ⟨.operator p, ⟨rfl, rfl⟩, ?_⟩
    cases last <;> rfl

/-- An opening bracket is refused as the next node, or begins the innermost Term. -/
theorem step_opening (pass : Pass) (p : Nat) (children : List Node) :
    pass.step ⟨.opening, p⟩ =
      (pass.expect (some (.term p children))).map fun _ => ⟨.nothing, p :: pass.opened⟩ := by
  obtain ⟨last, opened⟩ := pass
  cases last <;> rfl

/-- At its end a Term is refused, or it is whole. -/
theorem run_of_end {items : List Placed} (h : ∀ item ∈ items.head?, item.lexeme = .closing)
    (pass : Pass) :
    pass.run items = (pass.expect none).bind fun _ => run ⟨.operand, pass.opened⟩ items := by
  obtain ⟨last, opened⟩ := pass
  cases items with
  | nil => cases last <;> rfl
  | cons item items =>
    obtain ⟨lexeme, p⟩ := item
    obtain rfl : lexeme = .closing := h _ rfl
    cases last <;> rfl

/-- Lexemes that nest take the pass through the check of their trees. The row of trees is complete
where a closing bracket or the end of the text follows, so these are what may stand behind. -/
theorem run_of_nests {items : List Placed} {nodes : List Node} (h : Nests items nodes)
    (more : List Placed) (hmore : ∀ item ∈ more.head?, item.lexeme = .closing) (pass : Pass) :
    pass.run (items ++ more) = (pass.expect nodes.head?).bind fun _ =>
      (Node.verifyAll nodes).bind fun _ => run ⟨.operand, pass.opened⟩ more := by
  induction h generalizing more pass with
  | nil => exact run_of_end hmore pass
  | @leaf item node items nodes isLeaf _ ih =>
    obtain ⟨last, hfollows, hstep⟩ := step_leaf isLeaf pass
    have hterm : ¬ node.isTerm := by simpa [Node.isTerm] using not_term_of_leaf isLeaf
    have hneighbour := checkNeighbour_follows { pass with last := last } hfollows nodes.head?
    rw [List.cons_append, run, hstep, List.head?_cons, Node.verifyAll, if_neg hterm, hneighbour]
    cases pass.expect (some node) with
    | error fault => rfl
    | ok _ =>
      refine (ih more hmore { pass with last := last }).trans ?_
      cases expect { pass with last := last } nodes.head? <;> rfl
  | @group p q inner items children nodes _ _ ihInside ih =>
    have hterm : (Node.term p children).isTerm := rfl
    have hfollows : Follows (.term p children) .operand := .inl rfl
    have hneighbour := checkNeighbour_follows ⟨.operand, pass.opened⟩ hfollows nodes.head?
    -- Inside of the bracket pair the pass goes to its closing bracket, and from there on behind it.
    have hinside := ihInside (⟨.closing, q⟩ :: (items ++ more))
      (fun item hitem => by cases hitem; rfl) ⟨.nothing, p :: pass.opened⟩
    have hclose : run ⟨.operand, p :: pass.opened⟩ (⟨.closing, q⟩ :: (items ++ more)) =
        run ⟨.operand, pass.opened⟩ (items ++ more) := rfl
    rw [List.append_assoc, List.cons_append, List.cons_append, run, step_opening pass p children,
      List.head?_cons, Node.verifyAll, if_pos hterm, Node.verify_eq,
      checkBody_term p pass.opened children, hneighbour]
    cases pass.expect (some (.term p children)) with
    | error fault => rfl
    | ok _ =>
      refine hinside.trans ?_
      rw [hclose, ih more hmore ⟨.operand, pass.opened⟩]
      cases expect ⟨.nothing, p :: pass.opened⟩ children.head? with
      | error fault => rfl
      | ok _ =>
        show (Node.verifyAll children).bind _ = ((Node.verifyAll children).bind _).bind _
        cases Node.verifyAll children with
        | error fault => rfl
        | ok _ => cases expect ⟨.operand, pass.opened⟩ nodes.head? <;> rfl

end Pass

/-- The check of a whole tree whose lexemes nest. -/
theorem check_of_nests {items : List Placed} {nodes : List Node} (h : Nests items nodes) :
    (Node.term 0 nodes).check = Pass.start.run items := by
  have hpending := Node.checkPending_childTasks nodes []
  have hrun := Pass.run_of_nests h [] (by simp) .start
  rw [List.append_nil] at hpending hrun
  have hcheck : (Node.term 0 nodes).check = (Node.term 0 nodes).checkBody.bind fun _ =>
      Node.checkPending (Node.childTasks nodes) := rfl
  have hbody : (Node.term 0 nodes).checkBody = Pass.start.expect nodes.head? :=
    Pass.checkBody_term 0 [] nodes
  have hdone : Node.checkPending [] = .ok () := by rw [Node.checkPending]
  rw [hcheck, hpending, hrun, hbody, hdone]
  rfl

/-- **The check of the tree of a text is the pass over its lexemes**: both accept, or both find the
same fault at the same place. -/
theorem check_eq_pass {text : String} {tree : Node} (h : scan text = .ok tree) :
    (∃ items b, Lexes (.start text) items b ∧ b.rest = []) ∧
      ∀ items b, Lexes (.start text) items b → b.rest = [] →
        tree.check = Pass.start.run items := by
  obtain ⟨items, nodes, b, hlexes, hend, hnests, rfl⟩ := scan_eq_ok_iff.1 h
  refine ⟨⟨items, b, hlexes, hend⟩, fun others c hothers hstop => ?_⟩
  have hsame := (lex_eq_iff.2 ⟨hothers, hstop⟩).symm.trans (lex_eq_iff.2 ⟨hlexes, hend⟩)
  obtain rfl : others = items := congrArg Lexed.lexemes hsame
  exact check_of_nests hnests

theorem check_eq_pass_faults :
    let tree : Node := .term 0 [.term 0 [.mk .number (.decimal ⟨1, 0⟩) 1 [],
      .mk .number (.decimal ⟨2, 0⟩) 3 []], .mk .operator (.text "+") 5 []]
    scan "(1 2)+" = .ok tree ∧ tree.check = .error ⟨.misplacedOperand "number", some 3⟩ := by
  intro tree
  have hone : Reads ⟨1, ['1'] ++ [' ', '2', ')', '+']⟩ (.number ⟨1, 0⟩)
      ⟨1 + 1, [' ', '2', ')', '+']⟩ :=
    .number (by decide) ⟨'1', rfl, rfl⟩ Text.endsNumeral_space rfl
  have htwo : Reads ⟨3, ['2'] ++ [')', '+']⟩ (.number ⟨2, 0⟩) ⟨3 + 1, [')', '+']⟩ :=
    .number (by decide) ⟨'2', rfl, rfl⟩ Text.endsNumeral_closing rfl
  have hlexes : Lexes (.start "(1 2)+") [⟨.opening, 0⟩, ⟨.number ⟨1, 0⟩, 1⟩,
      ⟨.number ⟨2, 0⟩, 3⟩, ⟨.closing, 4⟩, ⟨.operator '+', 5⟩] ⟨6, []⟩ :=
    .cons .opening (.cons hone (.space (.cons htwo (.cons .closing
      (.cons (.operator (by decide)) (.nil _))))))
  have hgroup : Nests [⟨.opening, 0⟩, ⟨.number ⟨1, 0⟩, 1⟩, ⟨.number ⟨2, 0⟩, 3⟩, ⟨.closing, 4⟩,
      ⟨.operator '+', 5⟩] _ :=
    .group (.leaf rfl (.leaf rfl .nil)) (.leaf rfl .nil)
  have h : scan "(1 2)+" = .ok tree := scan_eq_ok_iff.2 ⟨_, _, _, hlexes, rfl, hgroup, rfl⟩
  exact ⟨h, (check_eq_pass h).2 _ _ hlexes rfl⟩

end ArithTree.Term
