import ArithTree.Proofs.Binary.Precedence

/-!
# Listings

A tree is listed by a walk with pending trees, and a listing is folded into a tree again with a
stack of finished trees. `postorder` is the listing by recursion on the tree, to which both are
compared.

* `listing_eq_postorder` : what the walk lists.
* `foldTokens_postorder` : a listed tree is folded into itself.
* `listed_foldTokens` : the listings of the finished trees are the tokens that were folded.
* `same_self` : a tree agrees with itself.
-/

namespace ArithTree

/-- The token without its place. -/
def Token.unplaced (token : Token) : Token := { token with position := none }

namespace Binary

open Token

/-! ### The walk -/

/-- The nodes in postorder: left operand, right operand, node. -/
def postorder : Expression → List Entry
  | .leaf value kind => [⟨value, kind, true⟩]
  | .branch value kind left right => postorder left ++ postorder right ++ [⟨value, kind, false⟩]
  | .foreign operand => operand.elim

theorem listOnto_eq (later : List Entry) (pending : List Expression) :
    Expression.listOnto later pending = pending.reverse.flatMap postorder ++ later := by
  fun_induction Expression.listOnto later pending with
  | case1 => rfl
  | case2 later value kind pending ih =>
    rw [ih]
    simp [postorder]
  | case3 later value kind left right pending ih =>
    rw [ih]
    simp [postorder]

theorem listing_eq_postorder (tree : Expression) : tree.listing = postorder tree := by
  rw [Expression.listing, listOnto_eq]
  simp

theorem toTokens_eq (tree : Expression) :
    tree.toTokens = (postorder tree).map Entry.token := by
  rw [Expression.toTokens, listing_eq_postorder]

/-! ### Folding -/

/-- A tree whose leaves are numbers and whose other nodes are operators. -/
inductive Proper : Expression → Prop where
  | leaf (value : String) : Proper (.leaf value .number)
  | branch (value : String) {left right : Expression} (properLeft : Proper left)
    (properRight : Proper right) : Proper (.branch value .operator left right)

/-- A listed tree is folded into itself, whatever the stack holds. -/
theorem foldTokens_postorder {tree : Expression} (h : Proper tree) (trees : List Expression) :
    foldTokens trees ((postorder tree).map Entry.token) = .ok (tree :: trees) := by
  induction h generalizing trees with
  | leaf value => exact foldTokens_number rfl
  | @branch value left right _ _ ihLeft ihRight =>
    rw [postorder, List.map_append, List.map_append, List.append_assoc,
      foldTokens_append_of_ok (ihLeft trees), foldTokens_append_of_ok (ihRight (left :: trees))]
    exact foldTokens_operator rfl

theorem ofPostfix_toTokens {tree : Expression} (h : Proper tree) :
    ofPostfix tree.toTokens = .ok tree := by
  rw [toTokens_eq, ofPostfix, foldTokens_postorder h]
  rfl

theorem foldToken_proper {trees next : List Expression} {token : Token}
    (h : foldToken trees token = .ok next) (hproper : ∀ tree ∈ trees, Proper tree) :
    ∀ tree ∈ next, Proper tree := by
  intro tree hmem
  obtain ⟨-, rfl⟩ | ⟨-, right, left, rest, rfl, rfl⟩ := foldToken_eq_ok h
  · rcases List.mem_cons.1 hmem with rfl | hmem
    · exact .leaf _
    · exact hproper tree hmem
  · rcases List.mem_cons.1 hmem with rfl | hmem
    · exact .branch _ (hproper left (by simp)) (hproper right (by simp))
    · exact hproper tree (by simp [hmem])

theorem foldTokens_proper {trees next : List Expression} {tokens : List Token}
    (h : foldTokens trees tokens = .ok next) (hproper : ∀ tree ∈ trees, Proper tree) :
    ∀ tree ∈ next, Proper tree := by
  induction tokens generalizing trees with
  | nil =>
    cases h
    exact hproper
  | cons token tokens ih =>
    obtain ⟨mid, hfirst, hrest⟩ := bind_eq_ok_iff.1 h
    exact ih hrest (foldToken_proper hfirst hproper)

/-- The listings of finished trees, the first one of which was finished last. -/
def listed (trees : List Expression) : List Token :=
  (trees.reverse.flatMap postorder).map Entry.token

theorem listed_foldToken {trees next : List Expression} {token : Token}
    (h : foldToken trees token = .ok next) : listed next = listed trees ++ [token.unplaced] := by
  obtain ⟨value, kind, position⟩ := token
  obtain ⟨rfl, rfl⟩ | ⟨rfl, right, left, rest, rfl, rfl⟩ := foldToken_eq_ok h
  · simp [listed, postorder, Entry.token, unplaced]
  · simp [listed, postorder, Entry.token, unplaced]

/-- What is folded is listed again, without the places. -/
theorem listed_foldTokens {trees next : List Expression} {tokens : List Token}
    (h : foldTokens trees tokens = .ok next) :
    listed next = listed trees ++ tokens.map unplaced := by
  induction tokens generalizing trees with
  | nil =>
    cases h
    rw [List.map_nil, List.append_nil]
  | cons token tokens ih =>
    obtain ⟨mid, hfirst, hrest⟩ := bind_eq_ok_iff.1 h
    rw [ih hrest, listed_foldToken hfirst, List.append_assoc, List.singleton_append, List.map_cons]

/-! ### Agreement -/

theorem compareAll_self (pending : List Expression) :
    Tree.compareAll (pending.map fun tree => (tree, tree)) = .ok true := by
  match pending with
  | [] =>
    rw [List.map_nil, Tree.compareAll]
  | .leaf value kind :: pending =>
    rw [List.map_cons, Tree.compareAll, if_pos ⟨rfl, rfl⟩]
    exact compareAll_self pending
  | .branch value kind left right :: pending =>
    rw [List.map_cons, Tree.compareAll, if_pos ⟨rfl, rfl⟩]
    exact compareAll_self (right :: left :: pending)
termination_by total Tree.size pending
decreasing_by
  · simp [Tree.size]
  · simp only [total_cons, Tree.size]; omega

theorem same_self (tree : Expression) : tree.same tree = true := by
  have h : Tree.compare tree tree = .ok true := compareAll_self [tree]
  rw [Expression.same, h]

end Binary

end ArithTree
