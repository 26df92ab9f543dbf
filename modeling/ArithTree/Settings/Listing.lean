import ArithTree.Settings.Table
import ArithTree.Text.Quoted

/-!
# Settings on one line

For a trace, settings are shown on one line: keys and values with colons between them, strings
quoted, truth values and the null value by capitalised words.
-/

namespace ArithTree.Settings

open Json (Document Value)
open Text (Utf16)

/-- A text between quote marks. -/
def quoted (s : Utf16) : String := String.ofList (Text.quoteCodes s.codePoints)

/-- A truth value. -/
def shownBool (b : Bool) : String := if b then "True" else "False"

mutual

/-- A value on one line. -/
def shown : Document → String
  | .null => "None"
  | .bool b => shownBool b
  | .integer n => n.repr
  | .double d => d.text
  | .string s => quoted s
  | .array items => "[" ++ ", ".intercalate (shownItems items) ++ "]"
  | .object members => "\x7b" ++ ", ".intercalate (shownMembers members) ++ "\x7d"

/-- The values of a list, each on its own. -/
def shownItems : List Document → List String
  | [] => []
  | item :: items => shown item :: shownItems items

/-- The members of an object, each on its own. -/
def shownMembers : List (Utf16 × Document) → List String
  | [] => []
  | (key, value) :: members => (quoted key ++ ": " ++ shown value) :: shownMembers members

end

/-- A key on one line. -/
def Key.shown : Key → String
  | null => "None"
  | bool b => shownBool b
  | integer n => n.repr
  | double d => d.text
  | text s => quoted s

/-- A table on one line. -/
def Table.shown (table : Table Empty) : String :=
  let members := table.map fun (key, value) => key.shown ++ ": " ++ Settings.shown value
  "\x7b" ++ ", ".intercalate members ++ "\x7d"

end ArithTree.Settings
