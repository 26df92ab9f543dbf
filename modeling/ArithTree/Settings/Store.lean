import ArithTree.Json.Read
import ArithTree.Json.Write
import ArithTree.Settings.Table
import ArithTree.Text.Utf8

/-!
# Stored settings

Settings and their descriptions are kept in a file each, as JSON. A file that is not there, or holds
no JSON, counts as an empty object; one that is no UTF-8, or whose value sets nothing, is a fault.
Saving replaces the file of the settings; a value that cannot be written to its end leaves the part
of the text that could. Settings that are no value are in `Settings.Unchecked`.

* `Slot.table` : the settings, the defaults included.
* `Slot.description` : the description of a setting.
* `Slot.save` : the file behind a save, and whether all was written.
-/

namespace ArithTree.Settings

open Json (Value)

variable {α : Type}

/-- What is at the place of a file. -/
inductive Slot where
  | absent
  | directory
  | file (bytes : List UInt8)

/-- Why settings cannot be had. -/
inductive Fault where
  /-- A directory is at the place of the file. -/
  | directory
  /-- The file is no UTF-8. -/
  | undecodable (fault : Text.Utf8.Fault)
  /-- The value in the file sets nothing. -/
  | unmergeable (fault : MergeFault)
  /-- The value in the file, of the named type, has no members. -/
  | noMembers (typeName : String)

/-- The wording of a fault; that of a missing access is left to the system. -/
def Fault.message? : Fault → Option String
  | directory => none
  | undecodable f => some f.message
  | unmergeable f => some f.message
  | noMembers typeName => some ("'" ++ typeName ++ "' object has no attribute 'get'")

/-- The key that stands for all settings together. -/
def everything : String := "all"

/-- What a name stands for among the settings. -/
inductive Setting (α : Type) where
  | all (table : Table α)
  | one (value : Value α)

namespace Slot

/-- A file of characters. -/
def ofText (text : List Char) : Slot := file (Text.Utf8.encode text)

/-- The text of the file, if there is one. -/
def text? : Slot → Option String
  | file bytes =>
    match Text.Utf8.decode bytes with
    | .ok text => some (String.ofList text)
    | .error _ => none
  | _ => none

/-- The value in the file. -/
def value : Slot → Except Fault (Value α)
  | absent => .ok (.object [])
  | directory => .error .directory
  | file bytes =>
    match Text.Utf8.decode bytes with
    | .error fault => .error (.undecodable fault)
    | .ok text => .ok ((Json.read text).getD (.object []))

/-- The settings: the defaults with everything set that the file sets. -/
def table (slot : Slot) : Except Fault (Table α) :=
  slot.value.bind fun value => (Table.ofValue value).mapError .unmergeable

/-- The setting of a name, the number 0 if there is none, or all settings. -/
def setting (slot : Slot) (name : String) : Except Fault (Setting α) :=
  slot.table.map fun table =>
    if name = everything then .all table
    else .one ((table.get? (.ofName name)).getD (.integer 0))

/-- The description of a name, the name itself if there is none, or all descriptions. -/
def description (slot : Slot) (name : String) : Except Fault (Value α) :=
  slot.value.bind fun value =>
    if name = everything then .ok value
    else match value with
      | .object members =>
        .ok ((Json.Members.get? members (.ofString name)).getD (.string (.ofString name)))
      | value => .error (.noMembers (typeName value))

/-- The file behind a save, and whether all was written. -/
def save (slot : Slot) (value : Value α) : Slot × Bool :=
  match slot with
  | directory => (directory, false)
  | _ => (ofText (Json.write value), Json.isWritable value)

/-- The settings with some more set, and the file behind saving them and whether all was written. -/
def update (slot : Slot) (changes : List (Key × Value α)) :
    Except Fault (Table α × Slot × Bool) :=
  slot.table.map fun table =>
    let table := table.setAll changes
    (table, slot.save table.toValue)

end Slot

/-! ### Both files -/

/-- The two files. -/
structure Store where
  /-- The settings. -/
  settings : Slot
  /-- Their descriptions. -/
  descriptions : Slot

namespace Store

/-- The name of the file of the settings. -/
def settingsFile : String := "config.json"

/-- The name of the file of the descriptions. -/
def descriptionsFile : String := "ui_strings.json"

/-- The path of a file in the directory that the program has for itself. -/
def pathIn (home file : String) : String := home ++ "/" ++ file

/-- Neither file is there. -/
def empty : Store := ⟨.absent, .absent⟩

/-- The members of an object of named values. -/
def named (members : List (String × Value Empty)) : Value Empty :=
  .object (members.map fun (name, value) => (.ofString name, value))

/-- The files that come with the program: the defaults, and a description of each. -/
def shipped : Store where
  settings := .ofText (Json.write (α := Empty) (Table.toValue defaults))
  descriptions := .ofText (Json.write (named
    [("darkmode", .string (.ofString "Dark mode")),
      ("multi_digit_tokens", .string (.ofString "Read whole numbers (multi-digit tokenizer)")),
      ("parse_on_type", .string (.ofString "Parse while typing")),
      ("show_postfix", .string (.ofString "Show postfix line")),
      ("debug", .string (.ofString "Print debug output")),
      ("tree_expand_depth", .string (.ofString "Expand tree to depth"))]))

end Store

end ArithTree.Settings
