import ArithTree.Settings.Key

/-!
# Tables of settings

A table has the default settings first, in their order, and behind them whatever else a file sets,
in the order in which it comes up. What a file sets is a list of keys with values, and it may be
written in several ways: as an object, or as a sequence of pairs, where each pair is itself an
object of two members (its keys are the pair), a string of two characters or a list of two values.

* `assignments` : the keys with values that a value sets, in order.
* `Table.ofValue` : the defaults with all of them set.
-/

namespace ArithTree.Settings

open Json (Value)
open Text (Utf16)

variable {α : Type}

/-- Settings in their order. -/
abbrev Table (α : Type) := List (Key × Value α)

/-- The settings of which a file need not speak. -/
def defaults : Table α :=
  [(.ofName "darkmode", .bool false), (.ofName "multi_digit_tokens", .bool false),
    (.ofName "parse_on_type", .bool true), (.ofName "show_postfix", .bool true),
    (.ofName "debug", .bool false), (.ofName "tree_expand_depth", .integer 8)]

namespace Table

/-- The table with more settings. -/
def setAll (table : Table α) (changes : List (Key × Value α)) : Table α :=
  Record.setAll Key.same table changes

/-- The setting of a key. -/
def get? (table : Table α) (key : Key) : Option (Value α) := Record.get? Key.same key table

/-- The table as a value that can be written. -/
def toValue (table : Table α) : Value α :=
  .object (table.map fun (key, value) => (key.written, value))

end Table

/-! ### What a value sets -/

/-- The name of the type of a value in a message. -/
def typeName : Value α → String
  | .null => "NoneType"
  | .bool _ => "bool"
  | .integer _ => "int"
  | .double _ => "float"
  | .string _ => "str"
  | .array _ => "list"
  | .object _ => "dict"
  | .foreign _ => "object"

/-- Why a value sets nothing. -/
inductive MergeFault where
  /-- The value, of the named type, has no parts. -/
  | noParts (typeName : String)
  /-- The part at this index has no parts itself. -/
  | noPair (index : Nat)
  /-- The part at this index has this many parts instead of two. -/
  | wrongLength (index length : Nat)
  /-- The key of a pair is of the named type, whose values are no keys. -/
  | compositeKey (typeName : String)
  deriving DecidableEq

/-- The wording of a fault. -/
def MergeFault.message : MergeFault → String
  | noParts typeName => "'" ++ typeName ++ "' object is not iterable"
  | noPair index =>
    "cannot convert dictionary update sequence element #" ++ index.repr ++ " to a sequence"
  | wrongLength index length =>
    "dictionary update sequence element #" ++ index.repr ++ " has length " ++ length.repr ++
      "; 2 is required"
  | compositeKey typeName => "unhashable type: '" ++ typeName ++ "'"

/-- The parts of a value: the items of a list, the characters of a string, the keys of an object. -/
def parts? : Value α → Option (List (Value α))
  | .array items => some items
  | .string s => some (s.characters.map .string)
  | .object members => some (members.map fun (key, _) => .string key)
  | _ => none

/-- The key and value of the pair at an index. -/
def pairOf (index : Nat) (pair : Value α) : Except MergeFault (Key × Value α) :=
  match parts? pair with
  | none => .error (.noPair index)
  | some [key, value] =>
    match Key.ofValue? key with
    | none => .error (.compositeKey (typeName key))
    | some key => .ok (key, value)
  | some parts => .error (.wrongLength index parts.length)

/-- The keys and values of a row of pairs, the first of which has the given index. -/
def pairsOf (index : Nat) : List (Value α) → Except MergeFault (List (Key × Value α))
  | [] => .ok []
  | pair :: pairs =>
    (pairOf index pair).bind fun setting => (pairsOf (index + 1) pairs).map (setting :: ·)

/-- The keys and values that a value sets, in order. -/
def assignments (value : Value α) : Except MergeFault (List (Key × Value α)) :=
  match value with
  | .object members => .ok (members.map fun (key, value) => (.text key, value))
  | value =>
    match parts? value with
    | none => .error (.noParts (typeName value))
    | some pairs => pairsOf 0 pairs

/-- The defaults with everything set that a value sets. -/
def Table.ofValue (value : Value α) : Except MergeFault (Table α) :=
  (assignments value).map defaults.setAll

/-! ### Switches -/

/-- Whether a value equals the truth value `true`, which counts as 1. -/
def isTrue (value : Value α) : Bool :=
  match Key.ofValue? value with
  | some key => key.same (.bool true)
  | none => false

/-- Whether the switch of a name is on. -/
def Table.isOn (table : Table α) (name : String) : Bool :=
  (table.get? (.ofName name)).any isTrue

end ArithTree.Settings
