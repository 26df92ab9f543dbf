import ArithTree.Proofs.Settings.Named
import ArithTree.Settings.Unchecked

/-!
# What is refused of settings

Settings without overlong numbers and refused keys are a value, whose foreign parts are whatever
else is refused of them, and they are written as that value. For all others the text is followed
from the place where it begins: it breaks off at once, or inside a list or object that is never
closed.

* `Unchecked.IsRefused` : what in the settings is refused, at any depth, and why.
* `Unchecked.value?` : the value that settings are, if they are one.
* `Unchecked.layout_of_value?`, `Slot.saveUnchecked_of_value?` : they are written as that value.
* `Unchecked.foreign_mem_layout_iff` : the foreign pieces are what is refused.
* `Unchecked.IsRefused.read_written_eq_none` : what is written before something refused is no JSON.
-/

namespace ArithTree.Settings

open Json (Begins EndsNumber Frame Members Phase Piece Value newLine readFrom written writtenString)

variable {refusal : Refusal} {level : Nat}

theorem checkedName_eq_error_iff {key : Option Key} :
    checkedName key = .error refusal ↔
      key = none ∧ refusal = .foreignKey ∨
        ∃ n, key = some (.integer n) ∧ isOverlong n = true ∧ refusal = .overlong := by
  match key with
  | none => simp [checkedName, eq_comm (a := Refusal.foreignKey)]
  | some (.integer n) =>
    by_cases h : isOverlong n <;> simp [checkedName, h, eq_comm (a := Refusal.overlong)]
  | some .null | some (.bool _) | some (.double _) | some (.text _) => simp [checkedName]

namespace Unchecked

/-- Something in the settings, at any depth, is refused for a reason. -/
inductive IsRefused : Refusal → Unchecked → Prop where
  | foreign : IsRefused .foreignPart .foreign
  | enclosing : IsRefused .enclosing .enclosing
  | integer {n : Int} (h : isOverlong n = true) : IsRefused .overlong (.integer n)
  | item {refusal : Refusal} {items : List Unchecked} {item : Unchecked} (h : item ∈ items)
    (hitem : IsRefused refusal item) : IsRefused refusal (.array items)
  | foreignKey {members : List (Option Key × Unchecked)} {value : Unchecked}
    (h : (none, value) ∈ members) : IsRefused .foreignKey (.object members)
  | overlongKey {members : List (Option Key × Unchecked)} {n : Int} {value : Unchecked}
    (h : (some (.integer n), value) ∈ members) (hn : isOverlong n = true) :
    IsRefused .overlong (.object members)
  | member {refusal : Refusal} {members : List (Option Key × Unchecked)} {key : Option Key}
    {value : Unchecked} (h : (key, value) ∈ members) (hvalue : IsRefused refusal value) :
    IsRefused refusal (.object members)

/-! ### Settings that are a value -/

mutual

/-- The value that settings are; none if a number is overlong or a key is refused. -/
def value? : Unchecked → Option (Value Refusal)
  | .null => some .null
  | .bool b => some (.bool b)
  | .integer n => if isOverlong n then none else some (.integer n)
  | .double d => some (.double d)
  | .string s => some (.string s)
  | .array items => (values? items).map .array
  | .object members => (members? members).map .object
  | .foreign => some (.foreign .foreignPart)
  | .enclosing => some (.foreign .enclosing)

/-- The values of items. -/
def values? : List Unchecked → Option (List (Value Refusal))
  | [] => some []
  | item :: items => item.value?.bind fun item => (values? items).map (item :: ·)

/-- The members with their names and values. -/
def members? : List (Option Key × Unchecked) → Option (Members Refusal)
  | [] => some []
  | (key, value) :: members =>
    match checkedName key with
    | .ok name => value.value?.bind fun value => (members? members).map ((name, value) :: ·)
    | .error _ => none

end

theorem lead_of_value? {settings : Unchecked} {value : Value Refusal}
    (h : settings.value? = some value) (separator : List Char) :
    settings.lead separator = [.text separator] := by
  cases settings with
  | integer n =>
    cases hn : isOverlong n with
    | true => simp [value?, hn] at h
    | false => simp [lead, hn]
  | _ => rfl

mutual

/-- Settings are laid out as the value that they are. -/
theorem layout_of_value? (settings : Unchecked) {value : Value Refusal} (level : Nat)
    (h : settings.value? = some value) : settings.layout level = value.layout level := by
  match settings with
  | .null | .bool true | .bool false | .double _ | .string _ | .foreign | .enclosing =>
    cases h
    rfl
  | .integer n =>
    cases hn : isOverlong n with
    | true => simp [value?, hn] at h
    | false =>
      simp only [value?, hn, Bool.false_eq_true, if_false, Option.some.injEq] at h
      subst h
      simp [layout, hn, Value.layout]
  | .array [] =>
    cases h
    rfl
  | .array (item :: items) =>
    simp only [value?, values?, Option.map_eq_some_iff, Option.bind_eq_some_iff] at h
    obtain ⟨_, ⟨v, hv, vs, hvs, rfl⟩, rfl⟩ := h
    rw [layout, lead_of_value? hv, layout_of_value? item _ hv, layoutItems_of_values? items _ hvs]
    rfl
  | .object [] =>
    cases h
    rfl
  | .object ((key, member) :: members) =>
    cases hkey : checkedName key with
    | error refusal => simp [value?, members?, hkey] at h
    | ok name =>
      simp only [value?, members?, hkey, Option.map_eq_some_iff, Option.bind_eq_some_iff] at h
      obtain ⟨_, ⟨v, hv, vs, hvs, rfl⟩, rfl⟩ := h
      rw [layout, keyPieces, hkey, layout_of_value? member _ hv,
        layoutMembers_of_members? members _ hvs]
      rfl

/-- Further items are laid out as their values. -/
theorem layoutItems_of_values? (items : List Unchecked) {values : List (Value Refusal)}
    (level : Nat) (h : values? items = some values) :
    layoutItems level items = Json.layoutItems level values := by
  match items with
  | [] =>
    cases h
    rfl
  | item :: items =>
    simp only [values?, Option.map_eq_some_iff, Option.bind_eq_some_iff] at h
    obtain ⟨v, hv, vs, hvs, rfl⟩ := h
    rw [layoutItems, lead_of_value? hv, layout_of_value? item _ hv,
      layoutItems_of_values? items _ hvs]
    rfl

/-- Further members are laid out as their names and values. -/
theorem layoutMembers_of_members? (members : List (Option Key × Unchecked))
    {named : Members Refusal} (level : Nat) (h : members? members = some named) :
    layoutMembers level members = Json.layoutMembers level named := by
  match members with
  | [] =>
    cases h
    rfl
  | (key, member) :: members =>
    cases hkey : checkedName key with
    | error refusal => simp [members?, hkey] at h
    | ok name =>
      simp only [members?, hkey, Option.map_eq_some_iff, Option.bind_eq_some_iff] at h
      obtain ⟨v, hv, vs, hvs, rfl⟩ := h
      rw [layoutMembers, keyPieces, hkey, layout_of_value? member _ hv,
        layoutMembers_of_members? members _ hvs]
      rfl

end

/-! ### What is refused -/

theorem foreign_mem_lead {separator : List Char} {settings : Unchecked} :
    .foreign refusal ∉ settings.lead separator := by
  cases settings with
  | integer n => by_cases h : isOverlong n <;> simp [lead, h]
  | _ => simp [lead]

theorem foreign_mem_keyPieces {separator early : List Char} {key : Option Key} :
    .foreign refusal ∈ keyPieces separator early key ↔ checkedName key = .error refusal := by
  cases h : checkedName key <;> simp [keyPieces, h, eq_comm]

theorem foreign_mem_layoutItems {items : List Unchecked} :
    .foreign refusal ∈ layoutItems level items ↔
      ∃ item ∈ items, .foreign refusal ∈ item.layout (level + 1) := by
  induction items with
  | nil => simp [layoutItems]
  | cons item items ih => simp [layoutItems, foreign_mem_lead, ih]

theorem foreign_mem_layoutMembers {members : List (Option Key × Unchecked)} :
    .foreign refusal ∈ layoutMembers level members ↔
      ∃ member ∈ members, checkedName member.1 = .error refusal ∨
        .foreign refusal ∈ member.2.layout (level + 1) := by
  induction members with
  | nil => simp [layoutMembers]
  | cons member members ih => simp [layoutMembers, foreign_mem_keyPieces, ih, or_assoc]

theorem foreign_mem_layout_array {items : List Unchecked} :
    .foreign refusal ∈ (array items).layout level ↔
      ∃ item ∈ items, .foreign refusal ∈ item.layout (level + 1) := by
  cases items <;> simp [layout, foreign_mem_lead, foreign_mem_layoutItems]

theorem foreign_mem_layout_object {members : List (Option Key × Unchecked)} :
    .foreign refusal ∈ (object members).layout level ↔
      ∃ member ∈ members, checkedName member.1 = .error refusal ∨
        .foreign refusal ∈ member.2.layout (level + 1) := by
  cases members <;> simp [layout, foreign_mem_keyPieces, foreign_mem_layoutMembers, or_assoc]

theorem IsRefused.foreign_mem_layout {settings : Unchecked} (h : settings.IsRefused refusal)
    (level : Nat) : .foreign refusal ∈ settings.layout level := by
  induction h generalizing level with
  | foreign | enclosing => exact List.mem_singleton_self _
  | integer hn => simp [layout, hn]
  | item hitem _ ih => exact foreign_mem_layout_array.2 ⟨_, hitem, ih _⟩
  | foreignKey hmember => exact foreign_mem_layout_object.2 ⟨_, hmember, .inl rfl⟩
  | overlongKey hmember hn =>
    have hname := checkedName_eq_error_iff.2 (.inr ⟨_, rfl, hn, rfl⟩)
    exact foreign_mem_layout_object.2 ⟨_, hmember, .inl hname⟩
  | member hmember _ ih => exact foreign_mem_layout_object.2 ⟨_, hmember, .inr (ih _)⟩

theorem isRefused_of_mem_layout (settings : Unchecked) {level : Nat}
    (h : .foreign refusal ∈ settings.layout level) : settings.IsRefused refusal := by
  match settings with
  | .null | .bool true | .bool false | .double _ | .string _ => simp [layout] at h
  | .integer n =>
    cases hn : isOverlong n with
    | true =>
      simp only [layout, hn, if_true, List.mem_singleton, Piece.foreign.injEq] at h
      subst h
      exact .integer hn
    | false => simp [layout, hn] at h
  | .array items =>
    obtain ⟨item, hitem, h⟩ := foreign_mem_layout_array.1 h
    exact .item hitem (isRefused_of_mem_layout item h)
  | .object members =>
    obtain ⟨⟨key, value⟩, hmember, hkey | hvalue⟩ := foreign_mem_layout_object.1 h
    · obtain ⟨rfl, rfl⟩ | ⟨n, rfl, hn, rfl⟩ := checkedName_eq_error_iff.1 hkey
      · exact .foreignKey hmember
      · exact .overlongKey hmember hn
    · exact .member hmember (isRefused_of_mem_layout value hvalue)
  | .foreign =>
    cases List.mem_singleton.1 h
    exact .foreign
  | .enclosing =>
    cases List.mem_singleton.1 h
    exact .enclosing
termination_by settings
decreasing_by
  · have := List.sizeOf_lt_of_mem hitem
    simp only [array.sizeOf_spec]
    omega
  · have := List.sizeOf_lt_of_mem hmember
    simp only [object.sizeOf_spec, Prod.mk.sizeOf_spec] at *
    omega

/-- The foreign pieces of settings are what is refused of them. -/
theorem foreign_mem_layout_iff (settings : Unchecked) (level : Nat) :
    .foreign refusal ∈ settings.layout level ↔ settings.IsRefused refusal :=
  ⟨isRefused_of_mem_layout settings, fun h => h.foreign_mem_layout level⟩

/-! ### Reading what was written -/

section

variable {β : Type} {phase : Phase β} {frames frames' : List (Frame β)} {value : Value β}
  {behind : List (Piece Refusal)}

theorem readFrom_after_nil {frame : Frame β} :
    readFrom (.after value) (frame :: frames) [] = none := by
  rw [readFrom, Json.lex_nil, Option.bind_some]
  rfl

/-- An object that breaks off before its first key. -/
theorem readFrom_openObject_nil (hbegin : Begins phase frames frames') :
    readFrom phase frames ('{' :: newLine level) = none := by
  rw [Json.readFrom_of_lex (Json.lex_cons (by decide) rfl), hbegin.step (by simp),
    ← List.append_nil (newLine level)]
  exact (Json.readFrom_newLine level).trans (Json.readFrom_nil nofun)

/-- Nothing is written from an overlong item on, and other items are behind their separators. -/
theorem written_lead_or (item : Unchecked) (level : Nat) (separator : List Char) :
    (∀ pieces, written (item.lead separator ++ (item.layout level ++ pieces)) = []) ∨
      item.lead separator = [.text separator] := by
  cases item with
  | integer n =>
    cases hn : isOverlong n with
    | true => simp [lead, layout, hn, written]
    | false => simp [lead, hn]
  | _ => exact .inr rfl

theorem endsNumber_layoutItems (level : Nat) (items : List Unchecked) (close : Char) :
    EndsNumber
      (written (layoutItems level items ++ .text (newLine level ++ [close]) :: behind)) := by
  cases items with
  | nil => rintro c ⟨⟩; decide
  | cons item items =>
    rw [layoutItems, List.append_assoc, List.append_assoc]
    rcases written_lead_or item (level + 1) (',' :: newLine (level + 1)) with h | h
    · simp [h, EndsNumber]
    · rw [h]
      rintro c ⟨⟩
      decide

theorem endsNumber_layoutMembers (level : Nat) (members : List (Option Key × Unchecked))
    (close : Char) :
    EndsNumber
      (written (layoutMembers level members ++ .text (newLine level ++ [close]) :: behind)) := by
  cases members with
  | nil => rintro c ⟨⟩; decide
  | cons member members =>
    rw [layoutMembers, keyPieces]
    cases checkedName member.1 with
    | ok name => rintro c ⟨⟩; decide
    | error refusal => rintro c ⟨⟩

/-- The reader does not come behind settings in front of what it cannot read. -/
theorem readFrom_of_value? {settings : Unchecked} {value : Value Refusal}
    (h : settings.value? = some value) (hbegin : Begins phase frames frames')
    (hends : EndsNumber (written behind))
    (hbehind : ∀ value, readFrom (.after value) frames' (written behind) = none) :
    readFrom phase frames (written (settings.layout level ++ behind)) = none := by
  rw [layout_of_value? settings level h, Json.readFrom_layout value level hbegin hends]
  simp [hbehind]

-- By induction on the settings: either the first item or member is no value, or the reader comes
-- through it by `readFrom_layout` and one of the further ones is none.
mutual

/-- Settings that are no value are not read to their end, wherever a value may begin. -/
theorem readFrom_layout_eq_none (settings : Unchecked) {level : Nat} {phase : Phase β}
    {frames frames' : List (Frame β)} {behind : List (Piece Refusal)}
    (h : settings.value? = none) (hbegin : Begins phase frames frames') :
    readFrom phase frames (written (settings.layout level ++ behind)) = none := by
  match settings with
  | .integer n =>
    cases hn : isOverlong n with
    | true =>
      simp only [layout, hn, if_true, List.cons_append, written]
      exact hbegin.readFrom_nil
    | false => simp [value?, hn] at h
  | .array [] => cases h
  | .array (item :: items) =>
    rw [layout, List.append_assoc, List.append_assoc, List.append_assoc]
    rcases written_lead_or item (level + 1) ('[' :: newLine (level + 1)) with hlead | hlead
    · -- not even the bracket is written
      rw [hlead]
      exact hbegin.readFrom_nil
    · rw [hlead, List.singleton_append, written, List.cons_append, hbegin.readFrom_openArray]
      cases hitem : item.value? with
      | none => exact readFrom_layout_eq_none item hitem (.firstItem _)
      | some value =>
        have hitems : values? items = none := by simpa [value?, values?, hitem] using h
        exact readFrom_of_value? hitem (.firstItem _) (endsNumber_layoutItems _ _ _) fun _ =>
          readFrom_layoutItems_eq_none items hitems
  | .object [] => cases h
  | .object ((key, member) :: members) =>
    rw [layout, keyPieces]
    cases hkey : checkedName key with
    | error refusal =>
      simp only [List.cons_append, written, List.append_nil]
      exact readFrom_openObject_nil hbegin
    | ok name =>
      simp only [List.cons_append, List.nil_append, List.append_assoc, written]
      rw [hbegin.readFrom_openObject]
      cases hmember : member.value? with
      | none => exact readFrom_layout_eq_none member hmember (.value _)
      | some value =>
        have hmembers : members? members = none := by
          simpa [value?, members?, hkey, hmember] using h
        exact readFrom_of_value? hmember (.value _) (endsNumber_layoutMembers _ _ _) fun _ =>
          readFrom_layoutMembers_eq_none members hmembers

/-- Further items that are no values are not read to their end. -/
theorem readFrom_layoutItems_eq_none (items : List Unchecked) {level : Nat} {value : Value β}
    {before : List (Value β)} {frames : List (Frame β)} {behind : List (Piece Refusal)}
    (h : values? items = none) :
    readFrom (.after value) (.array before :: frames)
      (written (layoutItems level items ++ .text (newLine level ++ [']']) :: behind)) = none := by
  match items with
  | [] => cases h
  | item :: items =>
    rw [layoutItems, List.append_assoc, List.append_assoc]
    rcases written_lead_or item (level + 1) (',' :: newLine (level + 1)) with hlead | hlead
    · rw [hlead]
      exact readFrom_after_nil
    · rw [hlead, List.singleton_append, written, List.cons_append, Json.readFrom_nextItem]
      cases hitem : item.value? with
      | none => exact readFrom_layout_eq_none item hitem (.value _)
      | some value =>
        have hitems : values? items = none := by simpa [values?, hitem] using h
        exact readFrom_of_value? hitem (.value _) (endsNumber_layoutItems _ _ _) fun _ =>
          readFrom_layoutItems_eq_none items hitems

/-- Further members that are refused or no values are not read to their end. -/
theorem readFrom_layoutMembers_eq_none (members : List (Option Key × Unchecked)) {level : Nat}
    {value : Value β} {before : Members β} {key : Text.Utf16} {frames : List (Frame β)}
    {behind : List (Piece Refusal)} (h : members? members = none) :
    readFrom (.after value) (.member before key :: frames)
      (written (layoutMembers level members ++ .text (newLine level ++ ['}']) :: behind)) =
        none := by
  match members with
  | [] => cases h
  | (next, member) :: members =>
    rw [layoutMembers, keyPieces]
    cases hnext : checkedName next with
    | error refusal => exact readFrom_after_nil
    | ok name =>
      simp only [List.cons_append, List.nil_append, List.append_assoc, written]
      rw [Json.readFrom_nextMember]
      cases hmember : member.value? with
      | none => exact readFrom_layout_eq_none member hmember (.value _)
      | some value =>
        have hmembers : members? members = none := by
          simpa [members?, hnext, hmember] using h
        exact readFrom_of_value? hmember (.value _) (endsNumber_layoutMembers _ _ _) fun _ =>
          readFrom_layoutMembers_eq_none members hmembers

end

end

/-- What is written before something that is refused is no JSON. -/
theorem IsRefused.read_written_eq_none {β : Type} {settings : Unchecked}
    (h : settings.IsRefused refusal) :
    Json.read (α := β) (written (settings.layout 0)) = none := by
  cases hvalue : settings.value? with
  | none =>
    rw [← List.append_nil (settings.layout 0)]
    exact readFrom_layout_eq_none settings hvalue (.value [])
  | some value =>
    have hlayout := layout_of_value? settings 0 hvalue
    have hforeign := h.foreign_mem_layout 0
    rw [hlayout, Json.foreign_mem_layout_iff] at hforeign
    rw [hlayout]
    exact (Json.read_write_eq_none_iff value).2 ⟨_, hforeign⟩

end Unchecked

/-! ### Saving -/

theorem outcome_eq_saved_iff {pieces : List (Piece Refusal)} :
    outcome pieces = .saved ↔ Json.isComplete pieces = true := by
  induction pieces with
  | nil => simp [outcome, Json.isComplete]
  | cons piece pieces ih =>
    cases piece with
    | text chars => simpa [outcome, Json.isComplete] using ih
    | foreign refusal => cases refusal <;> simp [outcome, Refusal.isHandled, Json.isComplete]

/-- The first foreign piece says what a save comes to. -/
theorem outcome_append {before behind : List (Piece Refusal)}
    (hbefore : Json.isComplete before = true) :
    outcome (before ++ .foreign refusal :: behind) =
      if refusal.isHandled then .nothing else .broken refusal := by
  induction before with
  | nil => rfl
  | cons piece before ih =>
    cases piece with
    | text chars => exact ih (by simpa [Json.isComplete] using hbefore)
    | foreign refusal => simp [Json.isComplete] at hbefore

namespace Slot

variable {slot : Slot} {settings : Unchecked}

theorem saveUnchecked_of_ne (h : slot ≠ .directory) (settings : Unchecked) :
    slot.saveUnchecked settings =
      (.ofText (written (settings.layout 0)), outcome (settings.layout 0)) := by
  cases slot with
  | directory => exact absurd rfl h
  | _ => rfl

/-- A save of settings that are a value is the save of that value. -/
theorem saveUnchecked_of_value? (slot : Slot) {value : Value Refusal}
    (h : settings.value? = some value) :
    (slot.saveUnchecked settings).1 = (slot.save value).1 ∧
      ((slot.saveUnchecked settings).2 = .saved ↔ (slot.save value).2 = true) := by
  by_cases hslot : slot = .directory
  · subst hslot
    simp [saveUnchecked, save]
  · rw [saveUnchecked_of_ne hslot, save_of_ne hslot, Unchecked.layout_of_value? settings 0 h]
    exact ⟨rfl, outcome_eq_saved_iff⟩

end Slot

end ArithTree.Settings
