import ArithTree.Text.Quoted
import ArithTree.Token.Basic
import ArithTree.Total

/-!
# Binary trees

A node of a binary tree carries the value and the kind of a token and has either two operands or
none. Trees that do not come from a text may also have foreign operands, values of a type `α` that
are no nodes; the trees of expressions are those without any, `Expression`.

* `Expression.listing` : the nodes in postorder.
* `Tree.compare`, `Expression.same`, `Expression.differs` : whether two trees agree node by node.
* `Expression.text` : the tree on one line, built from the listing.
-/

namespace ArithTree.Binary

/-- A binary tree with foreign operands of type `α`. -/
inductive Tree (α : Type) where
  | leaf (value : String) (kind : Token.Kind)
  | branch (value : String) (kind : Token.Kind) (left right : Tree α)
  | foreign (operand : α)
  deriving DecidableEq

/-- A binary tree all of whose operands are nodes. -/
abbrev Expression := Tree Empty

/-- A value that stands where a node should be: a text, or nothing at all. -/
inductive Stray where
  | text (s : String)
  | nothing
  deriving DecidableEq

namespace Stray

/-- The name of the type of a stray value in a message. -/
def typeName : Stray → String
  | text _ => "str"
  | nothing => "NoneType"

/-- Why a tree with a stray value has no listing. -/
def listingMessage (stray : Stray) : String :=
  "'" ++ stray.typeName ++ "' object has no attribute 'is_leaf'"

/-- Why a stray value is not compared with a node. -/
def comparisonMessage (stray : Stray) : String :=
  "'" ++ stray.typeName ++ "' object has no attribute 'value'"

/-- Why a tree with a stray value is not shown. -/
def displayMessage (stray : Stray) : String := "Cannot render " ++ stray.typeName

end Stray

/-- A node was to be built with just one operand. -/
inductive HalfBuilt where
  | mk

/-- Why a node is not built. -/
def HalfBuilt.message : HalfBuilt → String
  | mk => "An operator node needs both a left and a right operand."

namespace Tree

variable {α : Type}

/-- A node with the given operands, which must be two or none. -/
def node (value : String) (kind : Token.Kind) :
    Option (Tree α) → Option (Tree α) → Except HalfBuilt (Tree α)
  | none, none => .ok (leaf value kind)
  | some left, some right => .ok (branch value kind left right)
  | _, _ => .error .mk

/-- The number of nodes and foreign operands. -/
def size : Tree α → Nat
  | leaf _ _ => 1
  | branch _ _ left right => 1 + left.size + right.size
  | foreign _ => 1

/-- A tree without foreign operands, or one of its foreign operands. -/
def toExpression : Tree α → Except α Expression
  | leaf value kind => .ok (leaf value kind)
  | branch value kind left right =>
    right.toExpression.bind fun right =>
      left.toExpression.map fun left => branch value kind left right
  | foreign operand => .error operand

/-- Whether a tree is a node without operands. -/
def isLeaf : Tree α → Bool
  | leaf _ _ => true
  | _ => false

/-! ### Agreement -/

/-- Whether the trees of all pairs agree. A foreign operand of a second tree agrees with nothing;
one of a first tree cannot be compared with a node and is the error. -/
def compareAll : List (Tree α × Tree α) → Except α Bool
  | [] => .ok true
  | (_, foreign _) :: _ => .ok false
  | (foreign operand, _) :: _ => .error operand
  | (leaf v k, leaf w l) :: pending =>
    if v = w ∧ k = l then compareAll pending else .ok false
  | (branch v k left right, branch w l left' right') :: pending =>
    if v = w ∧ k = l then compareAll ((right, right') :: (left, left') :: pending) else .ok false
  | _ :: _ => .ok false
termination_by pairs => total (fun pair => pair.1.size) pairs
decreasing_by
  · simp [size]
  · simp only [total_cons, size]; omega

/-- Whether two trees agree node by node. -/
def compare (a b : Tree α) : Except α Bool := compareAll [(a, b)]

end Tree

/-! ### Listings -/

/-- A node without its operands. -/
structure Entry where
  /-- The value. -/
  value : String
  /-- The kind. -/
  kind : Token.Kind
  /-- It has no operands. -/
  isLeaf : Bool
  deriving DecidableEq

/-- A node as a token without a position. -/
def Entry.token (entry : Entry) : Token := ⟨entry.value, entry.kind, none⟩

namespace Expression

/-- Whether two trees agree node by node. -/
def same (a b : Expression) : Bool :=
  match Tree.compare a b with
  | .ok agree => agree
  | .error operand => nomatch operand

/-- Whether two trees differ in some node. -/
def differs (a b : Expression) : Bool := !a.same b

/-- The nodes of the pending trees, each before its operands and the right operand before the left
one, in front of `later` in reverse. -/
def listOnto (later : List Entry) : List Expression → List Entry
  | [] => later
  | .leaf value kind :: pending => listOnto (⟨value, kind, true⟩ :: later) pending
  | .branch value kind left right :: pending =>
    listOnto (⟨value, kind, false⟩ :: later) (right :: left :: pending)
termination_by pending => total Tree.size pending
decreasing_by
  · simp [Tree.size]
  · simp only [total_cons, Tree.size]; omega

/-- The nodes in postorder: left operand, right operand, node. -/
def listing (tree : Expression) : List Entry := listOnto [] [tree]

/-- The nodes in postorder, as tokens. -/
def toTokens (tree : Expression) : List Token := tree.listing.map Entry.token

/-- The texts of finished trees, the last one first, after the nodes of a listing; none if a node
lacks operands. -/
def textsOf : List String → List Entry → Option (List String)
  | texts, [] => some texts
  | texts, entry :: entries =>
    if entry.isLeaf then textsOf (("Number(" ++ entry.value ++ ")") :: texts) entries
    else match texts with
      | right :: left :: texts =>
        let text := "BinOp(" ++ Text.quote entry.value ++ ", left=" ++ left ++ ", right=" ++
          right ++ ")"
        textsOf (text :: texts) entries
      | _ => none

/-- The tree on one line: the text that its listing leaves. -/
def text (tree : Expression) : String :=
  match textsOf [] tree.listing with
  | some [text] => text
  | _ => ""

end Expression

end ArithTree.Binary
