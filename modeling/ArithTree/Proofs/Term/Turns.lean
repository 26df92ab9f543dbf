import ArithTree.Proofs.Term.Alternation

/-!
# Operators at the odd places

The check compares each node with its right neighbour only. What it comes to for a whole row can be
told from the places of the nodes: a row of odd length, with operators at the odd places and nowhere
else. A row that is accepted has one operand more than operators, and so have its leaves, since a
Term brings what a single operand would.

* `InTurn` : a row by the places of its operators.
* `Alternates.inTurn`, `alternates_of_inTurn` : alternation by turns is alternation by places.
* `Alternates.countP_leavesOf` : the leaves of a row that alternates, counted by their kinds.
* `check_eq_ok_iff_inTurn` : what the check accepts, and the leaves of what it accepts.
-/

namespace ArithTree.Term

/-! ### Places of a row -/

/-- The places of the operators of a row, odd or even, and the length of the row as well. -/
def Turn.parity : Turn → Nat
  | operand => 1
  | operator => 0

/-- Whose turn it is behind one node. -/
def Turn.next : Turn → Turn
  | operand => operator
  | operator => operand

/-- A row with operators at the places of one parity and nowhere else. Where an operand has to come
first, its length is odd and the operators stand at the odd places. -/
structure InTurn (turn : Turn) (nodes : List Node) : Prop where
  /-- The number of nodes. -/
  length : nodes.length % 2 = turn.parity
  /-- The places of the operators. -/
  operators : ∀ i node, nodes[i]? = some node → (node.kind = .operator ↔ i % 2 = turn.parity)

theorem inTurn_nil {turn : Turn} : InTurn turn [] ↔ turn = .operator := by
  constructor
  · intro h
    cases turn with
    | operand => cases h.length
    | operator => rfl
  · rintro rfl
    exact ⟨rfl, nofun⟩

theorem Turn.parity_succ (turn : Turn) (n : Nat) :
    (n + 1) % 2 = turn.parity ↔ n % 2 = turn.next.parity := by
  cases turn <;> simp only [parity, next] <;> omega

theorem Turn.zero_eq_parity (turn : Turn) : 0 % 2 = turn.parity ↔ turn = .operator := by
  cases turn <;> simp [parity]

theorem inTurn_cons {turn : Turn} {node : Node} {nodes : List Node} :
    InTurn turn (node :: nodes) ↔
      (node.kind = .operator ↔ turn = .operator) ∧ InTurn turn.next nodes := by
  constructor
  · intro h
    refine ⟨?_, ?_, fun i other hother => ?_⟩
    · rw [h.operators 0 node rfl, turn.zero_eq_parity]
    · rw [← turn.parity_succ]
      exact h.length
    · rw [h.operators (i + 1) other hother, turn.parity_succ]
  · rintro ⟨hnode, hnodes⟩
    refine ⟨?_, fun i other hother => ?_⟩
    · rw [List.length_cons, turn.parity_succ]
      exact hnodes.length
    · cases i with
      | zero =>
        cases hother
        rw [hnode, turn.zero_eq_parity]
      | succ i => rw [hnodes.operators i other hother, turn.parity_succ]

/-! ### Alternation -/

theorem Alternates.inTurn {turn : Turn} {nodes : List Node} (h : Alternates turn nodes) :
    InTurn turn nodes := by
  induction h with
  | done => exact inTurn_nil.2 rfl
  | operator kind _ ih => exact inTurn_cons.2 ⟨by simp [kind], ih⟩
  | leaf kind _ ih =>
    refine inTurn_cons.2 ⟨?_, ih⟩
    rcases kind with kind | kind <;> simp [kind]
  | group kind _ _ _ ih => exact inTurn_cons.2 ⟨by simp [kind], ih⟩

/-- The children of a node, and those of all Terms below it, are in turn. -/
def InTurnBelow (node : Node) : Prop :=
  ∀ inner, inner = node ∨ Encloses node inner → InTurn .operand inner.children

theorem InTurnBelow.of_mem {node child : Node} (h : InTurnBelow node)
    (hmem : child ∈ node.children) (hterm : child.isTerm) : InTurnBelow child := by
  rintro inner (rfl | hinner)
  · exact h inner (.inr (.child hterm hmem))
  · exact h inner (.inr (.deeper hterm hmem hinner))

/-- A row of listed kinds that is in turn alternates, if its Terms are in turn. -/
theorem alternates_of_inTurn {nodes : List Node} (h : Listed nodes) {turn : Turn}
    (hturn : InTurn turn nodes) (hbelow : ∀ node ∈ nodes, node.isTerm → InTurnBelow node) :
    Alternates turn nodes := by
  induction h generalizing turn with
  | nil =>
    obtain rfl := inTurn_nil.1 hturn
    exact .done
  | @leaf node nodes kind _ ih =>
    obtain ⟨hkind, hnext⟩ := inTurn_cons.1 hturn
    have hmore := ih hnext fun node hnode => hbelow node (List.mem_cons_of_mem _ hnode)
    cases turn with
    | operand =>
      have hnot : node.kind ≠ .operator := fun hoperator => by cases hkind.1 hoperator
      exact .leaf (kind.imp_right fun h => h.resolve_right hnot) hmore
    | operator => exact .operator (hkind.2 rfl) hmore
  | @group node nodes kind _ _ ihInside ih =>
    obtain ⟨hkind, hnext⟩ := inTurn_cons.1 hturn
    have hmore := ih hnext fun node hnode => hbelow node (List.mem_cons_of_mem _ hnode)
    have hnode : InTurnBelow node := hbelow node List.mem_cons_self (by simp [Node.isTerm, kind])
    cases turn with
    | operand =>
      -- The children of the Term are in turn, and so are those of the Terms among them.
      exact .group kind (ihInside (hnode node (.inl rfl)) fun child => hnode.of_mem) hmore
    | operator => exact absurd (kind.symm.trans (hkind.2 rfl)) (by simp)

/-! ### Leaves -/

/-- A number or an identifier. -/
def Node.isOperand (node : Node) : Bool := node.kind = .number ∨ node.kind = .identifier

/-- An operator. -/
def Node.isOperator (node : Node) : Bool := node.kind = .operator

/-- Among the leaves of a row that alternates, those of its Terms included, operators are as many as
operands or one less. -/
theorem Alternates.countP_leavesOf {turn : Turn} {nodes : List Node} (h : Alternates turn nodes) :
    (Node.leavesOf nodes).countP Node.isOperand =
      (Node.leavesOf nodes).countP Node.isOperator + turn.parity := by
  induction h with
  | done =>
    rw [Node.leavesOf]
    rfl
  | operator kind _ ih =>
    rw [leavesOf_leaf (by simp [kind]), List.countP_cons_of_neg (by simp [Node.isOperand, kind]),
      List.countP_cons_of_pos (by simp [Node.isOperator, kind]), ih]
    rfl
  | @leaf node _ kind _ ih =>
    have hterm : node.kind ≠ .term := by rcases kind with kind | kind <;> simp [kind]
    have hoperator : ¬ node.isOperator := by
      rcases kind with kind | kind <;> simp [Node.isOperator, kind]
    rw [leavesOf_leaf hterm, List.countP_cons_of_pos (by simpa [Node.isOperand] using kind),
      List.countP_cons_of_neg hoperator, ih]
    rfl
  | group kind _ _ ihInside ih =>
    -- The Term brings one operand more than operators, as a single operand would.
    rw [leavesOf_term kind, List.countP_append, List.countP_append, ihInside, ih]
    simp only [Turn.parity]
    omega

/-! ### The check -/

/-- **The check accepts the trees whose operators stand at the odd places**, in the row below the
root and in those of all Terms, each of odd length. Every row of an accepted tree has one number or
identifier more than operators among its leaves. -/
theorem check_eq_ok_iff_inTurn {root : Node} (h : Listed root.children) :
    (root.check = .ok () ↔
      ∀ node, node = root ∨ Encloses root node → InTurn .operand node.children) ∧
    (root.check = .ok () → ∀ node, node = root ∨ Encloses root node →
      node.leaves.countP Node.isOperand = node.leaves.countP Node.isOperator + 1) := by
  have hall : root.check = .ok () → ∀ node, node = root ∨ Encloses root node →
      Alternates .operand node.children := by
    rintro hcheck node (rfl | hnode)
    · exact (check_eq_ok_iff node h).1 hcheck
    · exact hnode.alternates ((check_eq_ok_iff root h).1 hcheck)
  refine ⟨⟨fun hcheck node hnode => (hall hcheck node hnode).inTurn, fun hturn => ?_⟩,
    fun hcheck node hnode => (hall hcheck node hnode).countP_leavesOf⟩
  have hroot : InTurnBelow root := hturn
  exact (check_eq_ok_iff root h).2
    (alternates_of_inTurn h (hroot root (.inl rfl)) fun child => hroot.of_mem)

theorem check_eq_ok_iff_inTurn_group :
    let inner := Node.term 1 [.mk .identifier (.text "x") 2 [], .mk .operator (.text "-") 3 [],
      .mk .number (.decimal ⟨2, 0⟩) 4 []]
    let root := Node.term 0 [inner, .mk .operator (.text "*") 6 [],
      .mk .number (.decimal ⟨3, 0⟩) 7 []]
    Listed root.children ∧ InTurn .operand root.children ∧ InTurn .operand inner.children ∧
      root.leaves.countP Node.isOperand = root.leaves.countP Node.isOperator + 1 := by
  intro inner root
  have hinner : Listed inner.children :=
    .leaf (.inr (.inl rfl)) (.leaf (.inr (.inr rfl)) (.leaf (.inl rfl) .nil))
  have hlisted : Listed root.children :=
    .group rfl hinner (.leaf (.inr (.inr rfl)) (.leaf (.inl rfl) .nil))
  have hinside : Alternates .operand inner.children :=
    .leaf (.inr rfl) (.operator rfl (.leaf (.inl rfl) .done))
  have hcheck : root.check = .ok () := (check_eq_ok_iff root hlisted).2
    (.group rfl hinside (.operator rfl (.leaf (.inl rfl) .done)))
  obtain ⟨hturn, hcount⟩ := check_eq_ok_iff_inTurn hlisted
  refine ⟨hlisted, hturn.1 hcheck root (.inl rfl), ?_, hcount hcheck root (.inl rfl)⟩
  exact hturn.1 hcheck inner (.inr (.child rfl List.mem_cons_self))

end ArithTree.Term
