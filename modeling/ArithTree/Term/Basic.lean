import ArithTree.Decimal
import ArithTree.Text.Capital
import ArithTree.Total

/-!
# Term trees

A term tree follows the brackets of a text: a Term is the whole text or a bracket pair, and its
children are the operands and operators in it, nested Terms among them. Every other node is a leaf.
Trees that do not come from a text may hold nodes of any kind with any children; the walks below
descend through Terms only.

* `Node.leaves` : the nodes that are no Terms, left to right.
* `Node.text` : the tree on one line.
-/

namespace ArithTree.Term

/-- The names of the kinds that have a meaning. -/
def kindNames : List String := ["term", "number", "identifier", "operator"]

/-- What a node stands for. -/
inductive Kind where
  | term
  | number
  | identifier
  | operator
  /-- A kind without a meaning, with a name that no other kind has. -/
  | other (name : String) (unlisted : name ∉ kindNames)
  deriving DecidableEq

namespace Kind

/-- The name of a kind. -/
def name : Kind → String
  | term => "term"
  | number => "number"
  | identifier => "identifier"
  | operator => "operator"
  | other name _ => name

/-- The kind of a given name. -/
def ofName (name : String) : Kind :=
  if h : name ∈ kindNames then
    if name = "term" then term
    else if name = "number" then number
    else if name = "identifier" then identifier
    else operator
  else other name h

end Kind

/-- What a node carries. -/
inductive Payload where
  | absent
  | text (s : String)
  | decimal (d : Decimal)
  deriving DecidableEq

/-- The text of a payload. -/
def Payload.label : Payload → String
  | absent => "None"
  | text s => s
  | decimal d => d.text

/-- A node of a term tree. -/
inductive Node where
  | mk (kind : Kind) (payload : Payload) (position : Int) (children : List Node)

namespace Node

/-- What the node stands for. -/
def kind : Node → Kind
  | mk kind _ _ _ => kind

/-- What the node carries. -/
def payload : Node → Payload
  | mk _ payload _ _ => payload

/-- The place of the node's first character. -/
def position : Node → Int
  | mk _ _ position _ => position

/-- The nodes right below. -/
def children : Node → List Node
  | mk _ _ _ children => children

/-- A Term. -/
def term (position : Int) (children : List Node) : Node := mk .term .absent position children

/-- Whether the node is a Term. -/
def isTerm (node : Node) : Bool := node.kind = .term

mutual

/-- The number of nodes of a tree. -/
def size : Node → Nat
  | mk _ _ _ children => 1 + sizeAll children

/-- The number of nodes of all trees of a list. -/
def sizeAll : List Node → Nat
  | [] => 0
  | node :: nodes => node.size + sizeAll nodes

end

theorem size_eq (node : Node) : node.size = 1 + sizeAll node.children := by
  cases node; rfl

theorem size_pos (node : Node) : 0 < node.size := by
  rw [size_eq]; omega

theorem sizeAll_append (a b : List Node) : sizeAll (a ++ b) = sizeAll a + sizeAll b := by
  induction a with
  | nil => simp [sizeAll]
  | cons node nodes ih => simp [sizeAll, ih]; omega

/-! ### Leaves -/

/-- The leaves of the pending trees, left to right. -/
def leavesOf : List Node → List Node
  | [] => []
  | node :: pending =>
    if node.isTerm then leavesOf (node.children ++ pending) else node :: leavesOf pending
termination_by pending => sizeAll pending
decreasing_by
  · simp only [sizeAll, sizeAll_append, size_eq node]; omega
  · have := size_pos node
    simp only [sizeAll]; omega

/-- The nodes below this one that are no Terms, left to right. -/
def leaves (node : Node) : List Node := leavesOf node.children

/-! ### The tree on one line -/

/-- A part of the line that is still to be written. -/
inductive Piece where
  | text (s : String)
  | node (n : Node)

/-- Bounds the pieces that a piece leads to, itself included. -/
def Piece.weight : Piece → Nat
  | text _ => 1
  | node n => 3 * n.size - 1

/-- The pieces of a row of children, with commas between them. -/
def childPieces (children : List Node) : List Piece :=
  (children.map Piece.node).intersperse (.text ", ")

/-- Bounds the pieces that the pieces of a list lead to. -/
def weightAll (pieces : List Piece) : Nat := total Piece.weight pieces

theorem weightAll_childPieces_le (children : List Node) :
    weightAll (childPieces children) ≤ 3 * sizeAll children := by
  induction children with
  | nil => simp [childPieces, weightAll]
  | cons node nodes ih =>
    cases nodes with
    | nil => simp [childPieces, weightAll, Piece.weight, sizeAll]
    | cons next rest =>
      have := size_pos node
      simp only [childPieces, weightAll, List.map_cons, List.intersperse_cons_cons, total_cons,
        Piece.weight, sizeAll] at ih ⊢
      omega

/-- A leaf: its kind, capitalised, with the payload in brackets. -/
def leafText (leaf : Node) : String :=
  Text.capitalize leaf.kind.name ++ "(" ++ leaf.payload.label ++ ")"

/-- The texts of the pending pieces: a Term opens, has its children and closes. -/
def pieceTexts : List Piece → List String
  | [] => []
  | .text s :: pending => s :: pieceTexts pending
  | .node n :: pending =>
    if n.isTerm then "Term([" :: pieceTexts (childPieces n.children ++ .text "])" :: pending)
    else leafText n :: pieceTexts pending
termination_by pending => weightAll pending
decreasing_by
  · simp [weightAll, Piece.weight]
  · have := weightAll_childPieces_le n.children
    simp only [weightAll, total_append, total_cons, Piece.weight, size_eq n] at this ⊢
    omega
  · have := size_pos n
    simp only [weightAll, total_cons, Piece.weight]
    omega

/-- The tree on one line. -/
def text (node : Node) : String := String.join (pieceTexts [.node node])

end Node

end ArithTree.Term
