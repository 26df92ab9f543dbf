import ArithTree.Double.Shortest
import ArithTree.Json.Value
import ArithTree.Text.Hex

/-!
# Writing JSON

A value is laid out with one item or member per line, indented by four spaces a level; empty arrays
and objects stay on one line. All characters but those from U+0020 to U+007E are escaped. Writing
stops at the first foreign part; what was written before it stays written. Whole numbers have any
number of digits here; settings are saved with a limit, which is in `Settings.Unchecked`.

* `Value.layout` : the pieces of a value in the order in which they are written.
* `written` : the text that is written of them.
-/

namespace ArithTree.Json

open Text (Utf16)

variable {α : Type}

/-! ### Strings and numbers -/

/-- A unit as it is written in a string. -/
def writtenUnit (unit : UInt16) : List Char :=
  if unit = 0x22 then ['\\', '"']
  else if unit = 0x5c then ['\\', '\\']
  else if unit = 0x0a then ['\\', 'n']
  else if unit = 0x0d then ['\\', 'r']
  else if unit = 0x09 then ['\\', 't']
  else if unit = 0x0c then ['\\', 'f']
  else if unit = 0x08 then ['\\', 'b']
  else if 0x20 ≤ unit ∧ unit < 0x7f then [Char.ofNat unit.toNat]
  else ['\\', 'u'] ++ Text.hexDigits 4 unit.toNat

/-- A string between its marks. -/
def writtenString (s : Utf16) : List Char := '"' :: s.units.flatMap writtenUnit ++ ['"']

/-- A whole number. -/
def writtenInteger (n : Int) : List Char :=
  (if n < 0 then ['-'] else []) ++ Nat.toDigits 10 n.natAbs

/-- A double. -/
def writtenDouble (d : Double) : List Char := d.textWith "Infinity" "NaN"

/-! ### Layout -/

/-- A part of the written form. -/
inductive Piece (α : Type) where
  | text (chars : List Char)
  /-- A foreign part, which has no written form. -/
  | foreign (part : α)

/-- A new line with the indentation of a level. -/
def newLine (level : Nat) : List Char := '\n' :: List.replicate (4 * level) ' '

mutual

/-- The pieces of a value that stands at a level. -/
def Value.layout (level : Nat) : Value α → List (Piece α)
  | .null => [.text "null".toList]
  | .bool true => [.text "true".toList]
  | .bool false => [.text "false".toList]
  | .integer n => [.text (writtenInteger n)]
  | .double d => [.text (writtenDouble d)]
  | .string s => [.text (writtenString s)]
  | .array [] => [.text "[]".toList]
  | .array (item :: items) =>
    .text ('[' :: newLine (level + 1)) :: (item.layout (level + 1) ++
      layoutItems level items ++ [.text (newLine level ++ [']'])])
  | .object [] => [.text ['{', '}']]
  | .object ((key, value) :: members) =>
    .text ('{' :: newLine (level + 1) ++ writtenString key ++ [':', ' ']) ::
      (value.layout (level + 1) ++ layoutMembers level members ++
        [.text (newLine level ++ ['}'])])
  | .foreign part => [.foreign part]

/-- The pieces of the further items of an array. -/
def layoutItems (level : Nat) : List (Value α) → List (Piece α)
  | [] => []
  | item :: items =>
    .text (',' :: newLine (level + 1)) :: (item.layout (level + 1) ++ layoutItems level items)

/-- The pieces of the further members of an object. -/
def layoutMembers (level : Nat) : List (Utf16 × Value α) → List (Piece α)
  | [] => []
  | (key, value) :: members =>
    .text (',' :: newLine (level + 1) ++ writtenString key ++ [':', ' ']) ::
      (value.layout (level + 1) ++ layoutMembers level members)

end

/-- The text up to the first foreign part. -/
def written : List (Piece α) → List Char
  | [] => []
  | .text chars :: pieces => chars ++ written pieces
  | .foreign _ :: _ => []

/-- Whether there is no foreign part. -/
def isComplete (pieces : List (Piece α)) : Bool :=
  pieces.all fun
    | .text _ => true
    | .foreign _ => false

/-- The text that is written of a value. -/
def write (value : Value α) : List Char := written (value.layout 0)

/-- Whether a value can be written to its end. -/
def isWritable (value : Value α) : Bool := isComplete (value.layout 0)

end ArithTree.Json
