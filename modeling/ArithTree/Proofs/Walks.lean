import ArithTree.Proofs.Display.Rendering

/-!
# Walks and recursions

The leaves and the line of a term tree, the listing and the line of a binary tree are all made by
walks with a stack of what is pending. Each of them is a recursion on the tree.

* `Term.Node.leavesOf_eq_flatMap`, `Term.Node.mem_leavesOf_iff` : the leaves, in order and as a set.
* `Term.Node.stackChildren_eq` : children and commas, stacked one by one.
* `Binary.nodup_paths`, `Binary.mem_paths_iff`, `Binary.map_entryAt?_paths` : a listing has every
  node once.
* `walks_eq_recursion` : all walks together.
-/

namespace ArithTree

namespace Term.Node

/-! ### Leaves -/

mutual

/-- The leaves of a tree, left to right: those of the children if the root is a Term, else the root
itself. -/
def ends : Node → List Node
  | mk kind payload position children =>
    if kind = .term then endsAll children else [mk kind payload position children]

/-- The leaves of the trees of a row. -/
def endsAll : List Node → List Node
  | [] => []
  | node :: nodes => node.ends ++ endsAll nodes

end

theorem endsAll_eq (nodes : List Node) : endsAll nodes = nodes.flatMap ends := by
  induction nodes with
  | nil => rfl
  | cons node nodes ih => rw [endsAll, ih, List.flatMap_cons]

theorem ends_term {node : Node} (h : node.isTerm) : node.ends = node.children.flatMap ends := by
  obtain ⟨kind, payload, position, children⟩ := node
  have hkind : kind = .term := of_decide_eq_true h
  rw [ends, if_pos hkind, endsAll_eq]
  rfl

theorem ends_leaf {node : Node} (h : ¬ node.isTerm) : node.ends = [node] := by
  obtain ⟨kind, payload, position, children⟩ := node
  have hkind : kind ≠ .term := fun hkind => h (decide_eq_true hkind)
  rw [ends, if_neg hkind]

/-- The walk finds the leaves of the pending trees one tree after the other. -/
theorem leavesOf_eq_flatMap (pending : List Node) : leavesOf pending = pending.flatMap ends := by
  fun_induction leavesOf pending with
  | case1 => rfl
  | case2 node pending hterm ih =>
    rw [ih, List.flatMap_append, List.flatMap_cons, ends_term hterm]
  | case3 node pending hterm ih =>
    rw [ih, List.flatMap_cons, ends_leaf hterm, List.singleton_append]

/-- What is no Term and is reached from a Term is reached from one of its children. -/
theorem reaches_iff_of_isTerm {node leaf : Node} (h : node.isTerm) (hleaf : leaf.kind ≠ .term) :
    node.Reaches leaf ↔ ∃ child ∈ node.children, child.Reaches leaf := by
  have hkind : node.kind = .term := of_decide_eq_true h
  constructor
  · intro hreaches
    cases hreaches with
    | self => exact absurd hkind hleaf
    | child _ mem reaches => exact ⟨_, mem, reaches⟩
  · rintro ⟨child, mem, reaches⟩
    exact .child hkind mem reaches

theorem reaches_iff_of_not_isTerm {node leaf : Node} (h : ¬ node.isTerm) :
    node.Reaches leaf ↔ leaf = node := by
  constructor
  · intro hreaches
    cases hreaches with
    | self => rfl
    | child isTerm => exact absurd (decide_eq_true isTerm) h
  · rintro rfl
    exact .self leaf

/-- The walk finds what is reached through Terms and is none itself. -/
theorem mem_leavesOf_iff {leaf : Node} (pending : List Node) :
    leaf ∈ leavesOf pending ↔ leaf.kind ≠ .term ∧ ∃ node ∈ pending, node.Reaches leaf := by
  fun_induction leavesOf pending with
  | case1 => simp
  | case2 node pending hterm ih =>
    rw [ih]
    refine and_congr_right fun hleaf => ?_
    simp only [List.mem_append, List.mem_cons, or_and_right, exists_or, exists_eq_left,
      reaches_iff_of_isTerm hterm hleaf]
  | case3 node pending hterm ih =>
    have hkind : node.kind ≠ .term := fun hkind => hterm (decide_eq_true hkind)
    simp only [List.mem_cons, ih, or_and_right, exists_or, exists_eq_left,
      reaches_iff_of_not_isTerm hterm]
    constructor
    · rintro (rfl | ⟨hleaf, hmore⟩)
      · exact ⟨hkind, .inl rfl⟩
      · exact ⟨hleaf, .inr hmore⟩
    · rintro ⟨hleaf, rfl | hmore⟩
      · exact .inl rfl
      · exact .inr ⟨hleaf, hmore⟩

/-! ### The line -/

/-- A child put on the pending pieces, with a comma above it unless it is the first one. -/
def stackChild (child : Node × Nat) (pending : List Piece) : List Piece :=
  if 0 < child.2 then .text ", " :: .node child.1 :: pending else .node child.1 :: pending

/-- The children of a Term put on the pending pieces one by one, from the last one on. -/
def stackChildren (children : List Node) (pending : List Piece) : List Piece :=
  children.zipIdx.foldr stackChild pending

theorem childPieces_cons (child : Node) (children : List Node) :
    childPieces (child :: children) =
      .node child :: children.flatMap fun next => [.text ", ", .node next] := by
  induction children generalizing child with
  | nil => rfl
  | cons next children ih =>
    rw [childPieces_cons_cons, ih, List.flatMap_cons]
    rfl

/-- From the second child on all have a comma. -/
theorem foldr_stackChild {start : Nat} (h : 0 < start) (children : List Node)
    (pending : List Piece) : (children.zipIdx start).foldr stackChild pending =
      (children.flatMap fun next => [.text ", ", .node next]) ++ pending := by
  induction children generalizing start with
  | nil => rfl
  | cons child children ih =>
    rw [List.zipIdx_cons, List.foldr_cons, ih (Nat.succ_pos start), stackChild, if_pos h,
      List.flatMap_cons]
    rfl

theorem stackChildren_eq (children : List Node) (pending : List Piece) :
    stackChildren children pending = childPieces children ++ pending := by
  cases children with
  | nil => rfl
  | cons child children =>
    rw [stackChildren, List.zipIdx_cons, List.foldr_cons, foldr_stackChild (Nat.succ_pos 0),
      stackChild, if_neg (Nat.lt_irrefl 0), childPieces_cons]
    rfl

/-- A Term opens, and its children go on the stack above the bracket that closes it. -/
theorem pieceTexts_term {node : Node} (h : node.isTerm) (pending : List Piece) :
    pieceTexts (.node node :: pending) =
      "Term([" :: pieceTexts (stackChildren node.children (.text "])" :: pending)) := by
  rw [pieceTexts, if_pos h, stackChildren_eq]

/-- The line of a tree is a recursion. -/
theorem text_eq (node : Node) : node.text =
    if node.kind = .term then "Term([" ++ ", ".intercalate (node.children.map text) ++ "])"
    else Text.capitalize node.kind.name ++ "(" ++ node.payload.label ++ ")" := by
  have htext : text = line := funext text_eq_line
  rw [htext]
  split
  · next hkind => exact line_term (decide_eq_true hkind)
  · next hkind => exact line_leaf fun hterm => hkind (of_decide_eq_true hterm)

end Term.Node

namespace Binary

/-! ### Listings -/

/-- One of the two operands of a node. -/
inductive Side where
  | left
  | right
  deriving DecidableEq

/-- The node at the end of a path from the root, if the path does not leave the tree. -/
def entryAt? : Expression → List Side → Option Entry
  | .leaf value kind, [] => some ⟨value, kind, true⟩
  | .branch value kind _ _, [] => some ⟨value, kind, false⟩
  | .branch _ _ left _, .left :: path => entryAt? left path
  | .branch _ _ _ right, .right :: path => entryAt? right path
  | _, _ => none

/-- The paths to the nodes, in postorder. -/
def paths : Expression → List (List Side)
  | .leaf _ _ => [[]]
  | .branch _ _ left right =>
    (paths left).map (.left :: ·) ++ (paths right).map (.right :: ·) ++ [[]]
  | .foreign operand => operand.elim

/-- The paths lead to the nodes in the order of the listing. -/
theorem map_entryAt?_paths (tree : Expression) :
    (paths tree).map (entryAt? tree) = (postorder tree).map some := by
  induction tree with
  | leaf value kind => rfl
  | branch value kind left right ihLeft ihRight =>
    rw [paths, postorder, List.map_append, List.map_append, List.map_append, List.map_append,
      ← ihLeft, ← ihRight, List.map_map, List.map_map]
    rfl
  | foreign operand => exact operand.elim

theorem mem_paths_iff (tree : Expression) (path : List Side) :
    path ∈ paths tree ↔ (entryAt? tree path).isSome := by
  induction tree generalizing path with
  | leaf value kind => cases path <;> simp [paths, entryAt?]
  | branch value kind left right ihLeft ihRight =>
    cases path with
    | nil => simp [paths, entryAt?]
    | cons side path => cases side <;> simp [paths, entryAt?, ihLeft, ihRight]
  | foreign operand => exact operand.elim

theorem nodup_paths (tree : Expression) : (paths tree).Nodup := by
  induction tree with
  | leaf value kind => exact List.nodup_singleton _
  | branch value kind left right ihLeft ihRight =>
    rw [paths, List.nodup_append, List.nodup_append]
    -- The first step of a path tells the operand that it leads to, and the node itself has none.
    refine ⟨⟨ihLeft.map List.cons_injective, ihRight.map List.cons_injective, ?_⟩,
      List.nodup_singleton _, ?_⟩
    · intro path hpath other hother
      obtain ⟨_, -, rfl⟩ := List.mem_map.1 hpath
      obtain ⟨_, -, rfl⟩ := List.mem_map.1 hother
      simp
    · intro path hpath other hother
      rw [List.mem_singleton.1 hother]
      rcases List.mem_append.1 hpath with hpath | hpath
      all_goals
        obtain ⟨_, -, rfl⟩ := List.mem_map.1 hpath
        exact List.cons_ne_nil _ _
  | foreign operand => exact operand.elim

end Binary

/-! ### All walks together -/

/-- **The walks are recursions.** The leaves of a term tree are those of the children of its root,
whatever the root is, from the first child to the last; they are the nodes that are reached through
Terms and are no Terms themselves. On the line a Term has the lines of its children between its
brackets, with commas between them; the walk stacks children and commas one by one. The listing of a
binary tree has the left operand, the right operand and then the node, and it has each node once, as
there is one path to it. The line is made from the listing without ever missing an operand, and no
other text is left. -/
theorem walks_eq_recursion :
    (∀ node : Term.Node,
      node.leaves = node.children.flatMap Term.Node.ends ∧
      (∀ leaf, leaf ∈ node.leaves ↔
        leaf.kind ≠ .term ∧ ∃ child ∈ node.children, child.Reaches leaf) ∧
      (node.isTerm → ∀ pending, Term.Node.pieceTexts (.node node :: pending) = "Term([" ::
        Term.Node.pieceTexts (Term.Node.stackChildren node.children (.text "])" :: pending))) ∧
      node.text = if node.kind = .term
        then "Term([" ++ ", ".intercalate (node.children.map Term.Node.text) ++ "])"
        else Text.capitalize node.kind.name ++ "(" ++ node.payload.label ++ ")") ∧
    (∀ tree : Binary.Expression,
      tree.listing = Binary.postorder tree ∧
      (Binary.paths tree).Nodup ∧
      (∀ path, path ∈ Binary.paths tree ↔ (Binary.entryAt? tree path).isSome) ∧
      (Binary.paths tree).map (Binary.entryAt? tree) = tree.listing.map some ∧
      Binary.Expression.textsOf [] tree.listing = some [Binary.line tree] ∧
      tree.text = Binary.line tree) := by
  refine ⟨fun node => ?_, fun tree => ?_⟩
  · exact ⟨Term.Node.leavesOf_eq_flatMap node.children,
      fun leaf => Term.Node.mem_leavesOf_iff node.children, Term.Node.pieceTexts_term,
      Term.Node.text_eq node⟩
  · refine ⟨Binary.listing_eq_postorder tree, Binary.nodup_paths tree, Binary.mem_paths_iff tree,
      ?_, Binary.textsOf_listing tree, Binary.text_eq_line tree⟩
    rw [Binary.map_entryAt?_paths, Binary.listing_eq_postorder]

end ArithTree
