import ArithTree.Proofs.Binary.Precedence

/-!
# Brackets and subtrees

A bracket pair has no node of its own in a binary tree. What stands between the brackets leaves the
operator stack as a block, though, and the block is folded into one tree, which stays a part of all
trees that are made of it.

* `foldTokens_isSubtree` : folding keeps the trees that it has.
* `isSubtree_of_bracketed` : a bracket pair is a subtree.
-/

namespace ArithTree.Binary

open Token

/-- A tree is a part of another one, or the whole of it. -/
inductive IsSubtree : Expression → Expression → Prop where
  | refl (tree : Expression) : IsSubtree tree tree
  | left {tree left right : Expression} {value : String} {kind : Kind}
    (inside : IsSubtree tree left) : IsSubtree tree (.branch value kind left right)
  | right {tree left right : Expression} {value : String} {kind : Kind}
    (inside : IsSubtree tree right) : IsSubtree tree (.branch value kind left right)

theorem IsSubtree.trans {a b c : Expression} (h : IsSubtree a b) (hb : IsSubtree b c) :
    IsSubtree a c := by
  induction hb with
  | refl => exact h
  | left _ ih => exact .left ih
  | right _ ih => exact .right ih

/-- One token keeps every finished tree, as a part of one of the next. -/
theorem foldToken_isSubtree {trees next : List Expression} {token : Token} {tree : Expression}
    (h : foldToken trees token = .ok next) (hmem : tree ∈ trees) :
    ∃ whole ∈ next, IsSubtree tree whole := by
  obtain ⟨-, rfl⟩ | ⟨-, right, left, rest, rfl, rfl⟩ := foldToken_eq_ok h
  · exact ⟨tree, List.mem_cons_of_mem _ hmem, .refl tree⟩
  · rcases List.mem_cons.1 hmem with rfl | hmem
    · exact ⟨_, List.mem_cons_self, .right (.refl tree)⟩
    · rcases List.mem_cons.1 hmem with rfl | hmem
      · exact ⟨_, List.mem_cons_self, .left (.refl tree)⟩
      · exact ⟨tree, List.mem_cons_of_mem _ hmem, .refl tree⟩

theorem foldTokens_isSubtree {trees next : List Expression} {tokens : List Token}
    {tree : Expression} (h : foldTokens trees tokens = .ok next) (hmem : tree ∈ trees) :
    ∃ whole ∈ next, IsSubtree tree whole := by
  induction tokens generalizing trees tree with
  | nil =>
    cases h
    exact ⟨tree, hmem, .refl tree⟩
  | cons token tokens ih =>
    obtain ⟨mid, hfirst, hrest⟩ := bind_eq_ok_iff.1 h
    obtain ⟨part, hpart, hinside⟩ := foldToken_isSubtree hfirst hmem
    obtain ⟨whole, hwhole, hpart⟩ := ih hrest hpart
    exact ⟨whole, hwhole, hinside.trans hpart⟩

/-- A bracket pair in infix notation is a subtree of the whole. -/
theorem isSubtree_of_bracketed {before inside behind : List Token} {p q : Nat}
    {part whole : Expression} (hpart : Derives 0 inside part)
    (hwhole : Derives 0 (before ++ (opening p :: inside ++ [closing q]) ++ behind) whole) :
    IsSubtree part whole := by
  obtain ⟨sent, ops, harrives, -, hfold⟩ := hwhole.arrives looser_nil
  rw [List.append_assoc] at harrives
  obtain ⟨sentBefore, _, stack, -, hrest, rfl⟩ := harrives.append_inv
  obtain ⟨sentInside, sentBehind, mid, hinside, -, rfl⟩ := hrest.append_inv
  obtain ⟨block, kept, hblock, hkept, hfoldBlock⟩ := hpart.arrives (looser_opening 0 p stack)
  obtain ⟨rfl, -⟩ := hinside.unique (hblock.bracketed hkept q)
  -- The block is folded on top of the trees from before it, and then becomes part of the whole.
  have hall := hfold []
  rw [List.append_assoc, foldTokens_append] at hall
  obtain ⟨trees, -, hall⟩ := bind_eq_ok_iff.1 hall
  rw [List.append_assoc, foldTokens_append_of_ok (hfoldBlock trees)] at hall
  obtain ⟨tree, hmem, hsub⟩ := foldTokens_isSubtree hall List.mem_cons_self
  rw [List.mem_singleton] at hmem
  exact hmem ▸ hsub

end ArithTree.Binary
