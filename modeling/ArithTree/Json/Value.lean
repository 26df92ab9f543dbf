import ArithTree.Double.Basic
import ArithTree.Record
import ArithTree.Text.Utf16

/-!
# JSON values

The values of JSON, with whole numbers of any size apart from numbers of double precision, and with
the members of an object in their order. A value that is to be written may hold foreign parts, of a
type `α`, that have no written form; a value without any is a `Document`.
-/

namespace ArithTree.Json

open Text (Utf16)

/-- A value with foreign parts of type `α`. -/
inductive Value (α : Type) where
  | null
  | bool (b : Bool)
  | integer (n : Int)
  | double (d : Double)
  | string (s : Utf16)
  | array (items : List (Value α))
  | object (members : List (Utf16 × Value α))
  | foreign (part : α)

/-- A value that can be written. -/
abbrev Document := Value Empty

/-- The members of an object in their order. -/
abbrev Members (α : Type) := List (Utf16 × Value α)

/-- The members with one of them set. -/
def Members.set {α : Type} (members : Members α) (key : Utf16) (value : Value α) : Members α :=
  Record.set (fun a b => a = b) key value members

/-- The value of a member. -/
def Members.get? {α : Type} (members : Members α) (key : Utf16) : Option (Value α) :=
  Record.get? (fun a b => a = b) key members

end ArithTree.Json
