import ArithTree.Proofs.Binary.Views
import Mathlib.Tactic.TFAE

/-!
# Equality of binary trees

Trees are compared by a walk that stops at the first nodes that differ, but what it decides is
whether they are the same tree. A listing decides it as well, if it tells which nodes have operands:
it can be read back with a stack of finished trees, whatever stands behind it. Where the kinds of
the nodes tell the leaves from the operators, the tokens of a tree are enough.

* `Expression.regrow` : the trees that a listing leaves on the stack.
* `postorder_injective` : different trees have different listings.
* `same_tfae` : agreeing node by node, having one listing and being one tree are the same.
-/

namespace ArithTree.Binary

/-! ### Reading a listing back -/

/-- The finished trees behind the nodes of a listing, the last one first; none if a node lacks
operands. -/
def Expression.regrow : List Expression → List Entry → Option (List Expression)
  | trees, [] => some trees
  | trees, entry :: entries =>
    if entry.isLeaf then regrow (.leaf entry.value entry.kind :: trees) entries
    else match trees with
      | right :: left :: trees =>
        regrow (.branch entry.value entry.kind left right :: trees) entries
      | _ => none

/-- A listed tree is finished again, whatever trees were finished before. -/
theorem regrow_postorder (tree : Expression) (trees : List Expression) (entries : List Entry) :
    Expression.regrow trees (postorder tree ++ entries) =
      Expression.regrow (tree :: trees) entries := by
  induction tree generalizing trees entries with
  | leaf value kind => simp [postorder, Expression.regrow]
  | branch value kind left right ihLeft ihRight =>
    rw [postorder, List.append_assoc, List.append_assoc, ihLeft, ihRight, List.singleton_append,
      Expression.regrow, if_neg Bool.false_ne_true]
  | foreign operand => exact operand.elim

/-- Different trees have different listings. -/
theorem postorder_injective {a b : Expression} (h : postorder a = postorder b) : a = b := by
  have hread (tree : Expression) : Expression.regrow [] (postorder tree) = some [tree] := by
    have := regrow_postorder tree [] []
    rwa [List.append_nil, Expression.regrow] at this
  have htrees : some [a] = some [b] := by rw [← hread a, h, hread b]
  exact List.singleton_inj.1 (Option.some_inj.1 htrees)

/-! ### Tokens -/

/-- The tokens of a tree tell it where the kinds of the nodes tell which of them have operands. -/
theorem Proper.eq_of_toTokens {a b : Expression} (ha : Proper a) (hb : Proper b)
    (h : a.toTokens = b.toTokens) : a = b := by
  refine Except.ok.inj (?_ : (Except.ok a : Except Fault Expression) = .ok b)
  rw [← ofPostfix_toTokens ha, h, ofPostfix_toTokens hb]

/-! ### Equality -/

theorem differs_iff {a b : Expression} : a.differs b = true ↔ a ≠ b := by
  rw [Expression.differs, Bool.not_eq_true', ← Bool.not_eq_true, same_iff]

theorem same_equivalence : Equivalence fun a b : Expression => a.same b = true where
  refl := same_self
  symm h := same_iff.2 (same_iff.1 h).symm
  trans hab hbc := same_iff.2 ((same_iff.1 hab).trans (same_iff.1 hbc))

/-- **Equality of binary trees is structural**, and their listings decide it. Agreeing node by node
is an equivalence. Two trees agree exactly if they are listed alike and exactly if they are one
tree, and they differ in all other cases. Trees with numbers at the leaves and operators above agree
exactly if they have the same tokens. -/
theorem same_tfae :
    (Equivalence fun a b : Expression => a.same b = true) ∧ ∀ a b : Expression,
      [a.same b = true, a.listing = b.listing, postorder a = postorder b, a = b].TFAE ∧
      (a.differs b = true ↔ a ≠ b) ∧
      (Proper a → Proper b → (a.same b = true ↔ a.toTokens = b.toTokens)) := by
  refine ⟨same_equivalence, fun a b => ⟨?_, differs_iff, fun ha hb => ?_⟩⟩
  · tfae_have 1 ↔ 4 := same_iff
    tfae_have 2 ↔ 3 := by rw [listing_eq_postorder, listing_eq_postorder]
    tfae_have 3 → 4 := postorder_injective
    tfae_have 4 → 3 := congrArg postorder
    tfae_finish
  · rw [same_iff]
    exact ⟨congrArg Expression.toTokens, ha.eq_of_toTokens hb⟩

/-- Subtraction from the left and from the right have the same leaves in the same order. -/
theorem same_tfae_difference :
    let left : Expression := .branch "-" .operator
      (.branch "-" .operator (.leaf "8" .number) (.leaf "3" .number)) (.leaf "2" .number)
    let right : Expression := .branch "-" .operator (.leaf "8" .number)
      (.branch "-" .operator (.leaf "3" .number) (.leaf "2" .number))
    Proper left ∧ Proper right ∧ (left.same right = true ↔ left.toTokens = right.toTokens) ∧
      left.toTokens ≠ right.toTokens ∧ left.differs right = true := by
  intro left right
  have hleft : Proper left := .branch _ (.branch _ (.leaf _) (.leaf _)) (.leaf _)
  have hright : Proper right := .branch _ (.leaf _) (.branch _ (.leaf _) (.leaf _))
  obtain ⟨hviews, hdiffers, htokens⟩ := same_tfae.2 left right
  have hne : left.toTokens ≠ right.toTokens := by
    rw [toTokens_eq, toTokens_eq]
    decide
  refine ⟨hleft, hright, htokens hleft hright, hne, hdiffers.2 fun h => hne ?_⟩
  exact (htokens hleft hright).1 ((hviews.out 0 3).2 h)

end ArithTree.Binary
