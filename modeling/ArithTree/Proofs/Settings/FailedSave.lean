import ArithTree.Proofs.Settings.Unchecked

/-!
# Saves that fail midway

A file is opened for writing before anything is written, and the text is written as it comes up. If
something is refused, what was written before it stays, and what the file held before is gone. What
stays is no JSON, so all settings are the defaults then.

* `Slot.exists_written_of_isRefused` : the file behind a save that fails, and what is set then.
* `Slot.exists_save_of_foreign` : what a save of a value with a foreign part leaves.
* `Slot.defaults_of_foreign` : nothing of the new value is ever set.
-/

namespace ArithTree.Settings

open Json (Document Value)

variable {α : Type}

namespace Slot

theorem text?_ofText (text : List Char) : (ofText text).text? = some (String.ofList text) := by
  rw [ofText, text?, Text.Utf8.decode_encode]

/-- A file that holds no JSON sets nothing. -/
theorem setting_of_read_eq_none {text : List Char} (h : Json.read (α := α) text = none)
    (name : String) :
    (ofText text).setting (α := α) name =
      .ok (if name = everything then .all defaults
        else .one ((defaults.get? (.ofName name)).getD (.integer 0))) := by
  have hvalue : (ofText text).value (α := α) = .ok (.object []) := by
    rw [value_ofText, h]
    rfl
  rw [setting, table_of_value hvalue]
  rfl

/-- A save that fails leaves the text up to the first foreign part, which is no JSON. -/
theorem exists_save_of_foreign {slot : Slot} (hslot : slot ≠ .directory) {value : Value α}
    (h : ∃ part, Value.IsPart (.foreign part) value) :
    ∃ before part behind, value.layout 0 = before ++ .foreign part :: behind ∧
      Json.isComplete before = true ∧ slot.save value = (.ofText (Json.written before), false) ∧
      ∀ β : Type, Json.read (α := β) (Json.written before) = none := by
  have hwritable := (Json.isWritable_eq_false_iff value).2 h
  obtain ⟨before, part, behind, hlayout, hbefore, hwritten⟩ :=
    Json.exists_foreign_of_not_isComplete hwritable
  have hwrite : Json.write value = Json.written before := hwritten
  refine ⟨before, part, behind, hlayout, hbefore, ?_, fun β => ?_⟩
  · rw [save_of_ne hslot, hwrite, hwritable]
  · rw [← hwrite]
    exact (Json.read_write_eq_none_iff value).2 h

/-- **What a save leaves of settings that are refused.** If anything in the settings is refused, at
whatever depth, then a file that cannot be opened stays as it is, and nothing counts as saved. Any
other file holds just what is written before the first thing that is refused, whatever it held
before. That text spells no value, so that the defaults are all that is set; and nothing counts as
saved if it is a part or key of another type that is refused first. -/
theorem exists_written_of_isRefused (slot : Slot) {settings : Unchecked}
    (h : ∃ refusal, settings.IsRefused refusal) :
    (slot = .directory → slot.saveUnchecked settings = (.directory, .nothing)) ∧
      (slot ≠ .directory → ∃ before refusal behind,
        settings.layout 0 = before ++ .foreign refusal :: behind ∧
        Json.isComplete before = true ∧ settings.IsRefused refusal ∧
        (slot.saveUnchecked settings).1 = .ofText (Json.written before) ∧
        (refusal.isHandled = true → (slot.saveUnchecked settings).2 = .nothing) ∧
        (∀ document : Document, ¬ Json.Spells (Json.written before) document) ∧
        ∀ name, (slot.saveUnchecked settings).1.setting (α := Empty) name =
          .ok (if name = everything then .all defaults
            else .one ((defaults.get? (.ofName name)).getD (.integer 0)))) := by
  obtain ⟨first, hfirst⟩ := h
  refine ⟨by rintro rfl; rfl, fun hslot => ?_⟩
  have hcomplete : Json.isComplete (settings.layout 0) = false :=
    Json.isComplete_eq_false_iff.2 ⟨first, hfirst.foreign_mem_layout 0⟩
  obtain ⟨before, refusal, behind, hlayout, hbefore, hwritten⟩ :=
    Json.exists_foreign_of_not_isComplete hcomplete
  have hrefused : settings.IsRefused refusal := by
    rw [← Unchecked.foreign_mem_layout_iff settings 0, hlayout]
    simp
  have hread : Json.read (α := Empty) (Json.written before) = none := by
    rw [← hwritten]
    exact hfirst.read_written_eq_none
  rw [saveUnchecked_of_ne hslot, hwritten]
  refine ⟨before, refusal, behind, hlayout, hbefore, hrefused, rfl, fun hhandled => ?_,
    Json.read_eq_none_iff.1 hread, setting_of_read_eq_none hread⟩
  simp only [hlayout, outcome_append hbefore, if_pos hhandled]

/-- A key that is refused, behind settings that are written and in front of a list inside itself. -/
theorem setting_debug_of_isRefused :
    ∃ half : Slot, (ofText "\x7b\"debug\": true\x7d".toList).saveUnchecked
        (.object [(some (.ofName "debug"), .bool true), (some (.ofName "extra"), .array
          [.null, .object [(some (.bool true), .array []), (none, .null)], .enclosing])]) =
          (half, .nothing) ∧
      half.text? = some ("\x7b\n    \"debug\": true,\n    \"extra\": [\n        null,\n" ++
        "        \x7b\n            \"true\": []") ∧
      half.setting (α := Empty) "debug" = .ok (.one (.bool false)) := by
  have hrefused : Unchecked.IsRefused .foreignKey
      (.object [(some (.ofName "debug"), .bool true), (some (.ofName "extra"), .array
        [.null, .object [(some (.bool true), .array []), (none, .null)], .enclosing])]) :=
    .member (List.mem_of_mem_getLast? rfl) (.item (List.mem_cons_of_mem _ List.mem_cons_self)
      (.foreignKey (List.mem_of_mem_getLast? rfl)))
  obtain ⟨-, hfile⟩ :=
    exists_written_of_isRefused (ofText "\x7b\"debug\": true\x7d".toList) ⟨_, hrefused⟩
  obtain ⟨_, _, _, -, -, -, -, -, -, hsetting⟩ := hfile nofun
  refine ⟨_, Prod.ext rfl ?_, ?_, hsetting "debug"⟩
  · rw [saveUnchecked_of_ne (ofText_ne_directory _)]
    decide
  · rw [text?_ofText]
    decide

/-- The text of a file is not the same behind a save that fails. -/
theorem text_ne_of_isRefused :
    Unchecked.IsRefused .foreignPart (.object [(some (.ofName "a"), .foreign)]) ∧
      ((ofText "\x7b\"debug\": true\x7d".toList).saveUnchecked
        (.object [(some (.ofName "a"), .foreign)])).1.text? ≠
        (ofText "\x7b\"debug\": true\x7d".toList).text? := by
  refine ⟨.member (List.mem_singleton_self _) .foreign, ?_⟩
  rw [saveUnchecked_of_ne (ofText_ne_directory _), text?_ofText, text?_ofText]
  intro h
  have hlength := congrArg List.length (String.ofList_injective (Option.some.inj h))
  revert hlength
  decide

/-- **No save leaves a half that can be read.** If a value has a foreign part, at whatever depth,
then a save of it to a file that can be opened fails, and leaves what is written of the value up to
the first foreign part. That text spells no value, so the settings can be had, and they are just the
defaults. -/
theorem defaults_of_foreign {slot : Slot} (hslot : slot ≠ .directory) {value : Value α}
    (h : ∃ part, Value.IsPart (.foreign part) value) :
    ∃ before part behind, value.layout 0 = before ++ .foreign part :: behind ∧
      Json.isComplete before = true ∧ slot.save value = (.ofText (Json.written before), false) ∧
      (∀ document : Document, ¬ Json.Spells (Json.written before) document) ∧
      (ofText (Json.written before)).setting (α := Empty) everything = .ok (.all defaults) := by
  obtain ⟨before, part, behind, hlayout, hbefore, hsave, hread⟩ := exists_save_of_foreign hslot h
  exact ⟨before, part, behind, hlayout, hbefore, hsave, Json.read_eq_none_iff.1 (hread Empty),
    setting_of_read_eq_none (hread Empty) everything⟩

/-- A foreign part in a list, behind a setting that is written to its end. -/
theorem defaults_of_nested_foreign :
    ∃ half : Slot, absent.save (.object [(.ofString "debug", .bool true),
        (.ofString "extra", .array [.null, .object [(.ofString "a", .foreign ())]])]) =
          (half, false) ∧
      half.text? = some ("\x7b\n    \"debug\": true,\n    \"extra\": [\n        null,\n" ++
        "        \x7b\n            \"a\": ") ∧
      half.setting (α := Empty) everything = .ok (.all defaults) := by
  have hpart : Value.IsPart (.foreign ()) (.object [(.ofString "debug", .bool true),
      (.ofString "extra", .array [.null, .object [(.ofString "a", .foreign ())]])]) :=
    .member (List.mem_of_mem_getLast? rfl) (.item (List.mem_of_mem_getLast? rfl)
      (.member (List.mem_singleton_self _) .self))
  have habsent : absent ≠ directory := nofun
  obtain ⟨before, -, -, -, -, hsave, -, hsetting⟩ := defaults_of_foreign habsent ⟨(), hpart⟩
  refine ⟨_, hsave, ?_, hsetting⟩
  have hhalf := (save_of_ne habsent _).symm.trans hsave
  rw [← (Prod.mk.inj hhalf).1, text?_ofText]
  decide

end Slot

end ArithTree.Settings
