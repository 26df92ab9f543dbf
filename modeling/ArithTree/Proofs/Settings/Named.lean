import ArithTree.Proofs.Json.Parts
import ArithTree.Proofs.Record
import ArithTree.Proofs.Text.Utf8
import ArithTree.Settings.Store

/-!
# Tables of named settings

All keys of a table are names if the file sets names only. Such a table is no more than the members
of an object: names are one key just if they are equal, and the table is written as that object.

* `Table.ofMembers` : the table of the members of an object.
* `Slot.table_of_value` : the settings of a file that holds an object.
* `Slot.setting_of_value` : the setting of a name there.
-/

namespace ArithTree.Settings

open Json (Members Value)
open Text (Utf16)

variable {α : Type}

/-! ### Tables of members -/

@[simp]
theorem Key.same_text (a b : Utf16) : Key.same (.text a) (.text b) = decide (a = b) := by
  simp [Key.same, Key.canonical]

/-- The table that sets the members of an object. -/
def Table.ofMembers (members : Members α) : Table α :=
  members.map fun (key, value) => (.text key, value)

/-- The defaults by their names. -/
def defaultMembers : Members α :=
  [(.ofString "darkmode", .bool false), (.ofString "multi_digit_tokens", .bool false),
    (.ofString "parse_on_type", .bool true), (.ofString "show_postfix", .bool true),
    (.ofString "debug", .bool false), (.ofString "tree_expand_depth", .integer 8)]

theorem defaults_eq_ofMembers : defaults = Table.ofMembers (α := α) defaultMembers := rfl

theorem nodup_defaultMembers : ((defaultMembers (α := α)).map Prod.fst).Nodup := by
  simp only [defaultMembers, List.map_cons, List.map_nil]
  decide

namespace Table

variable {members changes : Members α} {key : Utf16} {value : Value α}

theorem set_ofMembers :
    Record.set Key.same (.text key) value (ofMembers members) =
      ofMembers (members.set key value) := by
  induction members with
  | nil => rfl
  | cons member members ih =>
    obtain ⟨k, v⟩ := member
    simp only [ofMembers, List.map_cons, Members.set, Record.set, Key.same_text] at ih ⊢
    split
    · rfl
    · rw [ih, List.map_cons]

theorem setAll_ofMembers :
    (ofMembers members).setAll (ofMembers changes) =
      ofMembers (Record.setAll (fun a b => a = b) members changes) := by
  induction changes generalizing members with
  | nil => rfl
  | cons change changes ih =>
    obtain ⟨k, v⟩ := change
    exact (congrArg (setAll · (ofMembers changes)) set_ofMembers).trans ih

theorem apart_ofMembers (h : (members.map Prod.fst).Nodup) :
    Record.Apart Key.same (ofMembers members) := by
  refine List.pairwise_map.2 ((List.pairwise_map.1 h).imp fun hne => ?_)
  simpa using hne

end Table

/-! ### Files of objects -/

namespace Slot

variable {slot : Slot} {members : Members α}

theorem value_of_decode {bytes : List UInt8} {text : List Char}
    (h : Text.Utf8.decode bytes = .ok text) :
    (file bytes).value = .ok ((Json.read (α := α) text).getD (.object [])) := by
  rw [value, h]

theorem value_ofText (text : List Char) :
    (ofText text).value = .ok ((Json.read (α := α) text).getD (.object [])) :=
  value_of_decode (Text.Utf8.decode_encode text)

theorem ofText_ne_directory (text : List Char) : ofText text ≠ .directory := nofun

/-- A save writes over whatever was in the file. -/
theorem save_of_ne (h : slot ≠ .directory) (value : Value α) :
    slot.save value = (.ofText (Json.write value), Json.isWritable value) := by
  cases slot with
  | directory => exact absurd rfl h
  | _ => rfl

/-- The settings are the defaults with the members of the object set. -/
theorem table_of_value (h : slot.value = .ok (.object members)) :
    slot.table = .ok (.ofMembers (Record.setAll (fun a b => a = b) defaultMembers members)) := by
  rw [table, h]
  show Except.ok (Table.setAll defaults (Table.ofMembers members)) = _
  rw [defaults_eq_ofMembers, Table.setAll_ofMembers]

end Slot

end ArithTree.Settings
