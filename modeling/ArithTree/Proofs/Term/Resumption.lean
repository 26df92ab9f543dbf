import ArithTree.Proofs.Term.Alternation
import ArithTree.Proofs.Term.Views

/-!
# The check by recursion

The check of a tree does a list of tasks and never calls itself. It can as well be done with a stack
of visits: the visit of a Term is suspended at a child that is a Term itself and resumed, with the
same child, when the visit of that child is over. Both are the check by recursion, and both end on
every tree, whatever its kinds and children are.

* `resume` : the visits on a stack, the innermost first.
* `resume_eq` : resuming the visits is doing by recursion what is left of each.
* `cutBelow` : the tree without what the check does not look at.
* `check_eq_verify` : the check is the one by recursion.
-/

namespace ArithTree.Term.Node

/-! ### Visits -/

/-- A node whose children are being checked. -/
structure Visit where
  /-- The node. -/
  node : Node
  /-- The number of children that are done. -/
  index : Nat
  /-- The next child is a Term and has been checked inside. -/
  insideDone : Bool

/-- Bounds the visits that are resumed before a visit is over, itself included. -/
def Visit.weight (visit : Visit) : Nat :=
  if visit.insideDone then 3 * sizeAll (visit.node.children.drop (visit.index + 1)) + 2
  else 3 * sizeAll (visit.node.children.drop visit.index) + 1

theorem drop_eq_cons {children : List Node} {i : Nat} {child : Node}
    (h : children[i]? = some child) : children.drop i = child :: children.drop (i + 1) := by
  obtain ⟨hlt, rfl⟩ := List.getElem?_eq_some_iff.1 h
  exact List.drop_eq_getElem_cons hlt

theorem sizeAll_drop {children : List Node} {i : Nat} {child : Node}
    (h : children[i]? = some child) :
    sizeAll (children.drop i) = child.size + sizeAll (children.drop (i + 1)) := by
  rw [drop_eq_cons h, sizeAll]

/-- Resumes the visits, the first one first, up to the first fault. -/
def resume : List Visit → Except Fault Unit
  | [] => .ok ()
  | visit :: pending =>
    match _ : visit.node.children[visit.index]? with
    | none => resume pending
    | some child =>
      if child.isTerm ∧ visit.insideDone = false then
        child.checkBody.bind fun _ =>
          resume (⟨child, 0, false⟩ :: { visit with insideDone := true } :: pending)
      else
        (child.checkNeighbour visit.node.children[visit.index + 1]?).bind fun _ =>
          resume (⟨visit.node, visit.index + 1, false⟩ :: pending)
termination_by visits => total Visit.weight visits
decreasing_by
  · have hpos : 0 < visit.weight := by
      unfold Visit.weight
      split <;> exact Nat.succ_pos _
    simp only [total_cons]
    omega
  · next hchild hterm =>
    have hsize := sizeAll_drop hchild
    have hbelow := size_eq child
    simp only [total_cons, Visit.weight, hterm.2, Bool.false_eq_true, if_false, if_true,
      List.drop_zero]
    omega
  · next hchild _ =>
    have hsize := sizeAll_drop hchild
    have hpos := size_pos child
    simp only [total_cons, Visit.weight, Bool.false_eq_true, if_false]
    split <;> omega

/-- The check of a tree by visits, from that of its root on. -/
def checkByVisits (root : Node) : Except Fault Unit :=
  root.checkBody.bind fun _ => resume [⟨root, 0, false⟩]

/-! ### What is left of a visit -/

/-- What is left of a visit, by recursion. -/
def Visit.rest (visit : Visit) : Except Fault Unit :=
  match visit.node.children.drop visit.index with
  | [] => .ok ()
  | child :: later =>
    if visit.insideDone then
      (child.checkNeighbour later.head?).bind fun _ => verifyAll later
    else verifyAll (child :: later)

/-- What is left of all visits, one after the other. -/
def restAll : List Visit → Except Fault Unit
  | [] => .ok ()
  | visit :: pending => visit.rest.bind fun _ => restAll pending

theorem rest_begin (node : Node) : Visit.rest ⟨node, 0, false⟩ = verifyAll node.children := by
  rw [Visit.rest, List.drop_zero]
  cases node.children <;> rfl

theorem rest_of_none {visit : Visit} (h : visit.node.children[visit.index]? = none) :
    visit.rest = .ok () := by
  rw [Visit.rest, List.drop_eq_nil_of_le (List.getElem?_eq_none_iff.1 h)]

/-- At a child that is not yet done, what is left of the visit is to check it, if it is a Term that
was not checked inside, to compare it with the next one and to go on behind it. -/
theorem rest_of_some {visit : Visit} {child : Node}
    (h : visit.node.children[visit.index]? = some child) :
    visit.rest =
      (if child.isTerm ∧ visit.insideDone = false then child.verify else .ok ()).bind fun _ =>
        (child.checkNeighbour visit.node.children[visit.index + 1]?).bind fun _ =>
          Visit.rest ⟨visit.node, visit.index + 1, false⟩ := by
  obtain ⟨node, index, insideDone⟩ := visit
  have hlater :
      Visit.rest ⟨node, index + 1, false⟩ = verifyAll (node.children.drop (index + 1)) := by
    rw [Visit.rest]
    cases node.children.drop (index + 1) <;> rfl
  rw [hlater, Visit.rest, drop_eq_cons h, ← List.head?_drop]
  cases insideDone with
  | true => rw [if_neg fun hterm => Bool.noConfusion hterm.2]; rfl
  | false =>
    show verifyAll _ = _
    rw [verifyAll]
    simp only [and_true]

/-- **Resuming the visits is doing by recursion what is left of each**, one after the other. -/
theorem resume_eq (visits : List Visit) : resume visits = restAll visits := by
  fun_induction resume visits with
  | case1 => rfl
  | case2 visit pending hnone ih =>
    rw [ih, restAll, rest_of_none hnone]
    rfl
  | case3 visit pending child hchild hterm ih =>
    -- The visit of the child is followed by what is left of the visit that it suspends.
    have hrest : visit.rest = child.verify.bind fun _ =>
        Visit.rest { visit with insideDone := true } := by
      have hdone : Visit.rest { visit with insideDone := true } = _ := rest_of_some hchild
      rw [rest_of_some hchild, if_pos hterm, hdone, if_neg fun h => Bool.noConfusion h.2]
      rfl
    rw [ih, restAll, restAll, restAll, rest_begin, hrest, verify_eq, bind_bind, bind_bind]
  | case4 visit pending child hchild hterm ih =>
    rw [ih, restAll, restAll, rest_of_some hchild, if_neg hterm]
    exact (bind_bind _ _ _).symm

theorem checkByVisits_eq (root : Node) : root.checkByVisits = root.verify := by
  rw [checkByVisits, resume_eq, restAll, rest_begin, restAll, bind_ok, verify_eq]

theorem check_eq (root : Node) : root.check = root.verify := by
  have hpending := checkPending_childTasks root.children []
  have hdone : checkPending [] = .ok () := by rw [checkPending]
  rw [List.append_nil, hdone, bind_ok] at hpending
  rw [check, hpending, verify_eq]

/-! ### What is looked at -/

/-- The tree without the children of nodes that are no Terms. -/
def cut : Node → Node :=
  fold fun kind payload position children =>
    mk kind payload position (if kind = .term then children else [])

/-- The same below a root, which keeps its children whatever its kind is. -/
def cutBelow (root : Node) : Node :=
  mk root.kind root.payload root.position (root.children.map cut)

theorem cut_eq (node : Node) : node.cut =
    mk node.kind node.payload node.position
      (if node.kind = .term then node.children.map cut else []) := by
  obtain ⟨kind, payload, position, children⟩ := node
  rw [cut, fold, foldAll_eq]
  rfl

theorem kind_cut (node : Node) : node.cut.kind = node.kind := by
  rw [cut_eq]; rfl

theorem position_cut (node : Node) : node.cut.position = node.position := by
  rw [cut_eq]; rfl

theorem cut_of_isTerm {node : Node} (h : node.isTerm) : node.cut = node.cutBelow := by
  have hkind : node.kind = .term := of_decide_eq_true h
  rw [cut_eq, if_pos hkind, cutBelow]

theorem checkBody_cutBelow (root : Node) : root.cutBelow.checkBody = root.checkBody := by
  obtain ⟨kind, payload, position, children⟩ := root
  cases children with
  | nil => rfl
  | cons first rest =>
    show (if first.cut.kind = .operator then _ else _) = if first.kind = .operator then _ else _
    simp only [fault, kind_cut, position_cut]

theorem checkNeighbour_cut (node : Node) (next? : Option Node) :
    node.cut.checkNeighbour (next?.map cut) = node.checkNeighbour next? := by
  unfold checkNeighbour
  rw [kind_cut]
  cases node.kind <;> cases next? <;> simp only [Option.map, fault, kind_cut, position_cut]

theorem verifyAll_cut (nodes : List Node) : verifyAll (nodes.map cut) = verifyAll nodes := by
  cases nodes with
  | nil => rfl
  | cons node nodes =>
    have hinside : (if node.cut.isTerm then node.cut.verify else .ok ()) =
        if node.isTerm then node.verify else .ok () := by
      have hterm : node.cut.isTerm = node.isTerm := by rw [isTerm, kind_cut, isTerm]
      rw [hterm]
      by_cases h : node.isTerm
      · have hchildren := verifyAll_cut node.children
        rw [if_pos h, if_pos h, cut_of_isTerm h, verify_eq, checkBody_cutBelow, verify_eq,
          ← hchildren]
        rfl
      · rw [if_neg h, if_neg h]
    rw [List.map_cons, verifyAll, verifyAll, hinside, List.head?_map, checkNeighbour_cut,
      verifyAll_cut nodes]
termination_by sizeAll nodes
decreasing_by
  · simp only [sizeAll, size_eq node]
    omega
  · have := size_pos node
    simp only [sizeAll]
    omega

theorem verify_cutBelow (root : Node) : root.cutBelow.verify = root.verify := by
  have hchildren := verifyAll_cut root.children
  rw [verify_eq, checkBody_cutBelow, verify_eq, ← hchildren]
  rfl

/-! ### The check -/

/-- **The check of any tree is the one by recursion**, whether it does a list of tasks or resumes
visits. The children of nodes that are no Terms make no difference to it, and the kind of the root
makes none either: its children are always checked. -/
theorem check_eq_verify (root : Node) :
    root.check = root.verify ∧ root.checkByVisits = root.verify ∧
      root.cutBelow.check = root.check ∧
      ∀ kind payload, (mk kind payload root.position root.children).check = root.check := by
  refine ⟨check_eq root, checkByVisits_eq root, ?_, fun kind payload => ?_⟩
  · rw [check_eq, check_eq, verify_cutBelow]
  · rw [check_eq, check_eq, verify_eq, verify_eq]
    rfl

end ArithTree.Term.Node
