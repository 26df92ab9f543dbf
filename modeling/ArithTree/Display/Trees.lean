import ArithTree.Binary.Basic
import ArithTree.Display.Basic
import ArithTree.Term.Basic

/-!
# What is shown of the trees

A Term is shown as a pair of brackets over its children, a leaf of a term tree by its payload and a
node of a binary tree by its value. A leaf of a kind without a meaning, and a foreign operand of a
binary tree, cannot be shown.
-/

namespace ArithTree

/-- A leaf has a kind without a meaning, which is named here. -/
structure UnknownKind where
  /-- The name of the kind. -/
  name : String
  deriving DecidableEq

/-- The wording of the fault: the name itself. -/
def UnknownKind.message (kind : UnknownKind) : String := Text.quote kind.name

namespace Term.Node

/-- What is shown of one node of a term tree. -/
def describe (node : Node) : Except UnknownKind (Description Node) :=
  match node.kind with
  | .term => .ok ⟨"()", .term, node.children⟩
  | .number => .ok ⟨node.payload.label, .number, []⟩
  | .identifier => .ok ⟨node.payload.label, .identifier, []⟩
  | .operator => .ok ⟨node.payload.label, .operator, []⟩
  | .other name _ => .error ⟨name⟩

theorem total_size (nodes : List Node) : total size nodes = sizeAll nodes := by
  induction nodes with
  | nil => rfl
  | cons node nodes ih => simp only [total_cons, sizeAll, ih]

theorem size_below {node : Node} {d : Description Node} (h : describe node = .ok d) :
    total size d.below < size node := by
  have := size_pos node
  have := size_eq node
  unfold describe at h
  split at h <;> cases h
  · simp only [total_size]
    omega
  all_goals simpa

instance : Renderable Node UnknownKind where
  describe := describe
  size := size
  size_below := size_below

end Term.Node

namespace Binary.Tree

variable {α : Type}

/-- What is shown of one node of a binary tree; a foreign operand is the error. -/
def describe : Tree α → Except α (Description (Tree α))
  | leaf value kind => .ok ⟨value, styleOf kind, []⟩
  | branch value kind left right => .ok ⟨value, styleOf kind, [left, right]⟩
  | foreign operand => .error operand
where
  /-- Operators are dressed as such and everything else as a number. -/
  styleOf (kind : Token.Kind) : Style := if kind = .operator then .operator else .number

theorem size_below {tree : Tree α} {d : Description (Tree α)} (h : describe tree = .ok d) :
    total size d.below < size tree := by
  cases tree with
  | leaf value kind =>
    cases h
    exact Nat.zero_lt_one
  | branch value kind left right =>
    cases h
    simp only [total_cons, total_nil, size]
    omega
  | foreign operand => cases h

instance : Renderable (Tree α) α where
  describe := describe
  size := size
  size_below := size_below

end Binary.Tree

end ArithTree
