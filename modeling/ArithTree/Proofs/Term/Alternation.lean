import ArithTree.Proofs.Results
import ArithTree.Term.Check

/-!
# What the check of a tree accepts

`Node.verify` checks a tree by recursion, without a list of pending tasks, and `Alternates` says
without any check that operands and operators alternate in a row of nodes and in all Terms below it.

* `checkPending_childTasks` : doing the tasks of a row of children is checking it by recursion.
* `check_eq_ok_iff` : a tree of listed kinds passes exactly if its Terms alternate.
* `Encloses.alternates` : what passes, passes in all Terms below.
-/

namespace ArithTree.Term

namespace Node

mutual

/-- Checks a Term: its body first, then its children. -/
def verify : Node → Except Fault Unit
  | mk kind payload position children =>
    (mk kind payload position children).checkBody.bind fun _ => verifyAll children

/-- Checks a row of children: each is verified if it is a Term, and then compared with the next. -/
def verifyAll : List Node → Except Fault Unit
  | [] => .ok ()
  | node :: nodes =>
    (if node.isTerm then node.verify else .ok ()).bind fun _ =>
      (node.checkNeighbour nodes.head?).bind fun _ => verifyAll nodes

end

theorem verify_eq (node : Node) :
    node.verify = node.checkBody.bind fun _ => verifyAll node.children := by
  cases node
  rw [verify]
  rfl

/-- Doing the tasks of a row of children is checking it by recursion. -/
theorem checkPending_childTasks (nodes : List Node) (pending : List Task) :
    checkPending (childTasks nodes ++ pending) =
      (verifyAll nodes).bind fun _ => checkPending pending := by
  match nodes with
  | [] => rfl
  | node :: nodes =>
    have hrest := checkPending_childTasks nodes pending
    have hinside := checkPending_childTasks node.children
      (.neighbour node nodes.head? :: (childTasks nodes ++ pending))
    have hneighbour : checkPending (.neighbour node nodes.head? :: (childTasks nodes ++ pending)) =
        (node.checkNeighbour nodes.head?).bind fun _ =>
          (verifyAll nodes).bind fun _ => checkPending pending := by
      rw [checkPending, hrest]
    rw [childTasks, List.cons_append, List.cons_append, checkPending, verifyAll]
    -- A Term is done completely before its comparison: its tasks go in front of that.
    by_cases hterm : node.isTerm
    · rw [if_pos hterm, if_pos hterm, hinside, hneighbour, verify_eq]
      simp only [bind_bind]
    · rw [if_neg hterm, if_neg hterm, hneighbour]
      exact (bind_bind _ _ _).symm
termination_by sizeAll nodes
decreasing_by
  · have := size_pos node
    simp only [sizeAll]
    omega
  · simp only [sizeAll, size_eq node]
    omega

end Node

/-! ### Alternation -/

/-- What may come next in a row. -/
inductive Turn where
  /-- An operand has to come. -/
  | operand
  /-- An operator may come, or the row ends. -/
  | operator

/-- A row of nodes that reads operands and operators in turn, and so do the Terms in it. -/
inductive Alternates : Turn → List Node → Prop where
  | done : Alternates .operator []
  | operator {node : Node} {nodes : List Node} (kind : node.kind = .operator)
    (more : Alternates .operand nodes) : Alternates .operator (node :: nodes)
  | leaf {node : Node} {nodes : List Node} (kind : node.kind = .number ∨ node.kind = .identifier)
    (more : Alternates .operator nodes) : Alternates .operand (node :: nodes)
  | group {node : Node} {nodes : List Node} (kind : node.kind = .term)
    (inside : Alternates .operand node.children) (more : Alternates .operator nodes) :
    Alternates .operand (node :: nodes)

/-- A row of nodes of the kinds that have a meaning, and so are all nodes of the Terms in it. -/
inductive Listed : List Node → Prop where
  | nil : Listed []
  | leaf {node : Node} {nodes : List Node}
    (kind : node.kind = .number ∨ node.kind = .identifier ∨ node.kind = .operator)
    (more : Listed nodes) : Listed (node :: nodes)
  | group {node : Node} {nodes : List Node} (kind : node.kind = .term)
    (inside : Listed node.children) (more : Listed nodes) : Listed (node :: nodes)

/-- Whether a row begins with what may come next. -/
def Begins : Turn → List Node → Prop
  | .operand, nodes => ∃ first ∈ nodes.head?, first.kind ≠ .operator
  | .operator, nodes => ∀ first ∈ nodes.head?, first.kind = .operator

theorem checkBody_eq_ok_iff {node : Node} :
    node.checkBody = .ok () ↔ Begins .operand node.children := by
  rw [Node.checkBody, Begins]
  cases node.children with
  | nil => simp [Node.fault]
  | cons first rest =>
    by_cases h : first.kind = .operator
    · simp [h, Node.fault]
    · simp [h]

theorem checkNeighbour_operator {node : Node} {nodes : List Node} (h : node.kind = .operator) :
    node.checkNeighbour nodes.head? = .ok () ↔ Begins .operand nodes := by
  unfold Node.checkNeighbour Begins
  rw [h]
  cases nodes with
  | nil => simp [Node.fault]
  | cons next rest =>
    by_cases hn : next.kind = .operator
    · simp [hn, Node.fault]
    · simp [hn]

theorem checkNeighbour_operand {node : Node} {nodes : List Node}
    (h : node.kind = .term ∨ node.kind = .number ∨ node.kind = .identifier) :
    node.checkNeighbour nodes.head? = .ok () ↔ Begins .operator nodes := by
  unfold Node.checkNeighbour Begins
  cases nodes with
  | nil => rcases h with h | h | h <;> simp [h]
  | cons next rest =>
    by_cases hn : next.kind = .operator
    · rcases h with h | h | h <;> simp [h, hn]
    · rcases h with h | h | h <;> simp [h, hn, Node.fault]

/-- What the check of a row of listed kinds accepts. -/
theorem alternates_iff {nodes : List Node} (h : Listed nodes) (turn : Turn) :
    Alternates turn nodes ↔ Begins turn nodes ∧ Node.verifyAll nodes = .ok () := by
  induction h generalizing turn with
  | nil =>
    cases turn with
    | operand => exact ⟨nofun, fun h => by simp [Begins] at h⟩
    | operator => exact ⟨fun _ => ⟨by simp [Begins], rfl⟩, fun _ => .done⟩
  | @leaf node nodes kind _ ih =>
    have hterm : ¬ node.isTerm := by
      rcases kind with h | h | h <;> simp [Node.isTerm, h]
    rw [Node.verifyAll, if_neg hterm, then_eq_ok_iff, then_eq_ok_iff]
    cases turn with
    | operand =>
      constructor
      · rintro (_ | _ | ⟨hkind, more⟩ | ⟨hkind, _, _⟩)
        · obtain ⟨hb, hv⟩ := (ih .operator).1 more
          refine ⟨?_, rfl, (checkNeighbour_operand (.inr hkind)).2 hb, hv⟩
          rcases hkind with h | h <;> simp [Begins, h]
        · exact absurd hkind (by simpa [Node.isTerm] using hterm)
      · rintro ⟨hbegins, -, hn, hv⟩
        have hoperand : node.kind = .number ∨ node.kind = .identifier := by
          rcases kind with h | h | h
          · exact .inl h
          · exact .inr h
          · simp [Begins, h] at hbegins
        exact .leaf hoperand ((ih .operator).2 ⟨(checkNeighbour_operand (.inr hoperand)).1 hn, hv⟩)
    | operator =>
      constructor
      · rintro (_ | ⟨hkind, more⟩ | _ | _)
        obtain ⟨hb, hv⟩ := (ih .operand).1 more
        exact ⟨by simp [Begins, hkind], rfl, (checkNeighbour_operator hkind).2 hb, hv⟩
      · rintro ⟨hbegins, -, hn, hv⟩
        have hkind : node.kind = .operator := hbegins node rfl
        exact .operator hkind ((ih .operand).2 ⟨(checkNeighbour_operator hkind).1 hn, hv⟩)
  | @group node nodes kind _ _ ihInside ih =>
    have hterm : node.isTerm := by simp [Node.isTerm, kind]
    rw [Node.verifyAll, if_pos hterm, Node.verify_eq, then_eq_ok_iff, then_eq_ok_iff,
      then_eq_ok_iff, checkBody_eq_ok_iff, ← ihInside .operand,
      checkNeighbour_operand (.inl kind), ← ih .operator]
    cases turn with
    | operand =>
      constructor
      · rintro (_ | _ | ⟨hkind, _⟩ | ⟨_, inside, more⟩)
        · rw [kind] at hkind
          simp at hkind
        · exact ⟨by simp [Begins, kind], inside, more⟩
      · rintro ⟨-, inside, more⟩
        exact .group kind inside more
    | operator =>
      constructor
      · rintro (_ | ⟨hkind, _⟩ | _ | _)
        rw [kind] at hkind
        cases hkind
      · rintro ⟨hbegins, -⟩
        have hkind : node.kind = .operator := hbegins node rfl
        rw [kind] at hkind
        cases hkind

/-- **A tree of listed kinds passes the check exactly if its Terms alternate.** -/
theorem check_eq_ok_iff (root : Node) (h : Listed root.children) :
    root.check = .ok () ↔ Alternates .operand root.children := by
  have hpending := Node.checkPending_childTasks root.children []
  rw [List.append_nil] at hpending
  rw [Node.check, hpending, then_eq_ok_iff, then_eq_ok_iff, checkBody_eq_ok_iff, alternates_iff h]
  simp [Node.checkPending]

/-! ### Leaves and nested Terms -/

theorem leavesOf_leaf {node : Node} (h : node.kind ≠ .term) (nodes : List Node) :
    Node.leavesOf (node :: nodes) = node :: Node.leavesOf nodes := by
  rw [Node.leavesOf, if_neg (by simpa [Node.isTerm] using h)]

theorem leavesOf_eq_self {nodes : List Node} (h : ∀ node ∈ nodes, node.kind ≠ .term) :
    Node.leavesOf nodes = nodes := by
  induction nodes with
  | nil => rw [Node.leavesOf]
  | cons node nodes ih =>
    obtain ⟨hnode, hnodes⟩ := List.forall_mem_cons.1 h
    rw [leavesOf_leaf hnode, ih hnodes]

theorem leavesOf_append (nodes more : List Node) :
    Node.leavesOf (nodes ++ more) = Node.leavesOf nodes ++ Node.leavesOf more := by
  fun_induction Node.leavesOf nodes with
  | case1 => rfl
  | case2 node nodes hterm ih =>
    rw [List.cons_append, Node.leavesOf, if_pos hterm, ← List.append_assoc, ih]
  | case3 node nodes hterm ih =>
    rw [List.cons_append, Node.leavesOf, if_neg hterm, ih, List.cons_append]

theorem leavesOf_term {node : Node} (h : node.kind = .term) (nodes : List Node) :
    Node.leavesOf (node :: nodes) = Node.leavesOf node.children ++ Node.leavesOf nodes := by
  rw [Node.leavesOf, if_pos (by simpa [Node.isTerm] using h), leavesOf_append]

/-- A Term somewhere below another node, inside of Terms only. -/
inductive Encloses : Node → Node → Prop where
  | child {outer inner : Node} (isTerm : inner.isTerm) (mem : inner ∈ outer.children) :
    Encloses outer inner
  | deeper {outer mid inner : Node} (isTerm : mid.isTerm) (mem : mid ∈ outer.children)
    (below : Encloses mid inner) : Encloses outer inner

theorem Alternates.of_mem {turn : Turn} {nodes : List Node} {node : Node}
    (h : Alternates turn nodes) (hmem : node ∈ nodes) (hterm : node.isTerm) :
    Alternates .operand node.children := by
  induction h with
  | done => cases hmem
  | operator kind _ ih =>
    rcases List.mem_cons.1 hmem with rfl | hmem
    · simp [Node.isTerm, kind] at hterm
    · exact ih hmem
  | leaf kind _ ih =>
    rcases List.mem_cons.1 hmem with rfl | hmem
    · rcases kind with kind | kind <;> simp [Node.isTerm, kind] at hterm
    · exact ih hmem
  | group _ inside _ _ ih =>
    rcases List.mem_cons.1 hmem with rfl | hmem
    · exact inside
    · exact ih hmem

theorem Encloses.alternates {outer inner : Node} (h : Encloses outer inner)
    (houter : Alternates .operand outer.children) : Alternates .operand inner.children := by
  induction h with
  | child isTerm mem => exact houter.of_mem mem isTerm
  | deeper isTerm mem _ ih => exact ih (houter.of_mem mem isTerm)

end ArithTree.Term
