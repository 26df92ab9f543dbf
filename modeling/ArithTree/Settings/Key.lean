import ArithTree.Double.Shortest
import ArithTree.Json.Value

/-!
# Keys of settings

Settings are looked up by name, but a file may set other scalars too. Numbers of equal value are one
key, whether they are whole numbers, doubles or truth values, which count as 0 and 1.

* `Key.same` : whether two keys are one.
* `Key.ofValue?` : the key that a value makes; lists and objects make none.
-/

namespace ArithTree.Settings

open Json (Value)
open Text (Utf16)

/-- A key of a setting. -/
inductive Key where
  | null
  | bool (b : Bool)
  | integer (n : Int)
  | double (d : Double)
  | text (s : Utf16)
  deriving DecidableEq

namespace Key

/-- The key of a name. -/
def ofName (name : String) : Key := text (.ofString name)

/-- The form of a key that all keys of the same value share. -/
def canonical : Key → Key
  | bool b => integer (if b then 1 else 0)
  | double d =>
    match d.integer? with
    | some n => integer n
    | none => double d
  | key => key

/-- Whether two keys are one. -/
def same (a b : Key) : Bool := a.canonical = b.canonical

/-- The key that a value makes. -/
def ofValue? {α : Type} : Value α → Option Key
  | .null => some null
  | .bool b => some (bool b)
  | .integer n => some (integer n)
  | .double d => some (double d)
  | .string s => some (text s)
  | .array _ | .object _ | .foreign _ => none

/-- The name that a key is written by in a file. -/
def written : Key → Utf16
  | null => .ofString "null"
  | bool true => .ofString "true"
  | bool false => .ofString "false"
  | integer n => .ofString n.repr
  | double d => .ofString (String.ofList (d.textWith "Infinity" "NaN"))
  | text s => s

end Key

end ArithTree.Settings
