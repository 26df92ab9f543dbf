import ArithTree.Proofs.Json.Spelling
import ArithTree.Proofs.Record

/-!
# Parts of values

A value holds itself and what its items or members hold. Which parts a value holds says what becomes
of it when it is written: with a foreign part it cannot be written to its end, and without doubles
and with distinct keys in all its objects it is read back as it was.

* `Value.IsPart` : a value held by another at any depth.
* `Value.IsExact` : no part is changed by writing and reading.
* `isWritable_eq_false_iff`, `read_write_eq_none_iff` : a foreign part is what keeps a value from
  being written.
* `read_write_of_isExact` : a value that is read back as it was.
* `hasDistinctKeys_of_read` : no object in a value that is read has a key twice.
-/

namespace ArithTree.Json

variable {α β : Type}

/-- Whether a value is held by another, at any depth. -/
inductive Value.IsPart (part : Value α) : Value α → Prop where
  | self : IsPart part part
  | item {items : List (Value α)} {item : Value α} (h : item ∈ items) (hpart : IsPart part item) :
    IsPart part (.array items)
  | member {members : Members α} {member : Text.Utf16 × Value α} (h : member ∈ members)
    (hpart : IsPart part member.2) : IsPart part (.object members)

/-- The keys of all objects in a value are distinct. -/
def Value.HasDistinctKeys (value : Value α) : Prop :=
  ∀ members, IsPart (.object members) value → (members.map Prod.fst).Nodup

/-- A value none of whose parts is changed by writing and reading it. -/
structure Value.IsExact (value : Value α) : Prop where
  noForeign : ∀ part, ¬ IsPart (.foreign part) value
  noDouble : ∀ d, ¬ IsPart (.double d) value
  distinct : value.HasDistinctKeys

/-- What holds of a value if it holds of the items or members of it, holds of every value. -/
@[elab_as_elim]
theorem Value.inductOn {motive : Value α → Prop} (value : Value α) (null : motive .null)
    (bool : ∀ b, motive (.bool b)) (integer : ∀ n, motive (.integer n))
    (double : ∀ d, motive (.double d)) (string : ∀ s, motive (.string s))
    (array : ∀ items : List (Value α), (∀ item ∈ items, motive item) → motive (.array items))
    (object : ∀ members : Members α, (∀ member ∈ members, motive member.2) →
      motive (.object members))
    (foreign : ∀ part, motive (.foreign part)) : motive value :=
  match value with
  | .null => null
  | .bool b => bool b
  | .integer n => integer n
  | .double d => double d
  | .string s => string s
  | .array items => array items fun item _ =>
    item.inductOn null bool integer double string array object foreign
  | .object members => object members fun member _ =>
    member.2.inductOn null bool integer double string array object foreign
  | .foreign part => foreign part
termination_by value
decreasing_by
  · have := List.sizeOf_lt_of_mem ‹item ∈ items›
    simp only [Value.array.sizeOf_spec]
    omega
  · have := List.sizeOf_lt_of_mem ‹member ∈ members›
    cases member
    simp only [Value.object.sizeOf_spec, Prod.mk.sizeOf_spec] at *
    omega

namespace Value

variable {part value item : Value α} {items : List (Value α)} {members : Members α}

@[simp]
theorem isPart_array_iff :
    IsPart part (.array items) ↔ part = .array items ∨ ∃ item ∈ items, IsPart part item := by
  constructor
  · rintro (_ | ⟨h, hpart⟩)
    · exact .inl rfl
    · exact .inr ⟨_, h, hpart⟩
  · rintro (rfl | ⟨_, h, hpart⟩)
    · exact .self
    · exact .item h hpart

@[simp]
theorem isPart_object_iff :
    IsPart part (.object members) ↔
      part = .object members ∨ ∃ member ∈ members, IsPart part member.2 := by
  constructor
  · rintro (_ | _ | ⟨h, hpart⟩)
    · exact .inl rfl
    · exact .inr ⟨_, h, hpart⟩
  · rintro (rfl | ⟨_, h, hpart⟩)
    · exact .self
    · exact .member h hpart

/-- What is neither array nor object holds itself alone. -/
theorem isPart_iff_eq (harray : ∀ items, value ≠ .array items)
    (hobject : ∀ members, value ≠ .object members) : IsPart part value ↔ part = value := by
  constructor
  · rintro (_ | _ | _)
    · rfl
    · exact absurd rfl (harray _)
    · exact absurd rfl (hobject _)
  · rintro rfl
    exact .self

theorem hasDistinctKeys_of_ne (harray : ∀ items, value ≠ .array items)
    (hobject : ∀ members, value ≠ .object members) : value.HasDistinctKeys := by
  intro members h
  exact absurd ((isPart_iff_eq harray hobject).1 h).symm (hobject _)

theorem hasDistinctKeys_array_iff :
    HasDistinctKeys (.array items) ↔ ∀ item ∈ items, HasDistinctKeys item := by
  constructor
  · exact fun h item hitem members hpart => h members (.item hitem hpart)
  · intro h members hpart
    obtain ⟨item, hitem, hpart⟩ := (isPart_array_iff.1 hpart).resolve_left nofun
    exact h item hitem members hpart

theorem hasDistinctKeys_object_iff :
    HasDistinctKeys (.object members) ↔
      (members.map Prod.fst).Nodup ∧ ∀ member ∈ members, HasDistinctKeys member.2 := by
  constructor
  · exact fun h => ⟨h members .self, fun member hm ms hpart => h ms (.member hm hpart)⟩
  · rintro ⟨hkeys, h⟩ ms hpart
    obtain ⟨⟨⟩⟩ | ⟨member, hm, hpart⟩ := isPart_object_iff.1 hpart
    · exact hkeys
    · exact h member hm ms hpart

theorem isExact_array_iff : IsExact (.array items) ↔ ∀ item ∈ items, IsExact item := by
  constructor
  · exact fun h item hitem => ⟨fun part hpart => h.noForeign part (.item hitem hpart),
      fun d hpart => h.noDouble d (.item hitem hpart),
      hasDistinctKeys_array_iff.1 h.distinct item hitem⟩
  · intro h
    refine ⟨fun part hpart => ?_, fun d hpart => ?_,
      hasDistinctKeys_array_iff.2 fun item hitem => (h item hitem).distinct⟩
    · obtain ⟨item, hitem, hpart⟩ := (isPart_array_iff.1 hpart).resolve_left nofun
      exact (h item hitem).noForeign part hpart
    · obtain ⟨item, hitem, hpart⟩ := (isPart_array_iff.1 hpart).resolve_left nofun
      exact (h item hitem).noDouble d hpart

theorem isExact_object_iff :
    IsExact (.object members) ↔
      (members.map Prod.fst).Nodup ∧ ∀ member ∈ members, IsExact member.2 := by
  constructor
  · intro h
    have hdistinct := hasDistinctKeys_object_iff.1 h.distinct
    exact ⟨hdistinct.1, fun member hm => ⟨fun part hpart => h.noForeign part (.member hm hpart),
      fun d hpart => h.noDouble d (.member hm hpart), hdistinct.2 member hm⟩⟩
  · rintro ⟨hkeys, h⟩
    refine ⟨fun part hpart => ?_, fun d hpart => ?_,
      hasDistinctKeys_object_iff.2 ⟨hkeys, fun member hm => (h member hm).distinct⟩⟩
    · obtain ⟨member, hm, hpart⟩ := (isPart_object_iff.1 hpart).resolve_left nofun
      exact (h member hm).noForeign part hpart
    · obtain ⟨member, hm, hpart⟩ := (isPart_object_iff.1 hpart).resolve_left nofun
      exact (h member hm).noDouble d hpart

theorem isExact_of_ne (harray : ∀ items, value ≠ .array items)
    (hobject : ∀ members, value ≠ .object members) (hdouble : ∀ d, value ≠ .double d)
    (hforeign : ∀ part, value ≠ .foreign part) : value.IsExact where
  noForeign part h := hforeign part ((isPart_iff_eq harray hobject).1 h).symm
  noDouble d h := hdouble d ((isPart_iff_eq harray hobject).1 h).symm
  distinct := hasDistinctKeys_of_ne harray hobject

@[simp]
theorem isExact_null : IsExact (α := α) .null := isExact_of_ne nofun nofun nofun nofun

@[simp]
theorem isExact_bool (b : Bool) : IsExact (α := α) (.bool b) :=
  isExact_of_ne nofun nofun nofun nofun

@[simp]
theorem isExact_integer (n : Int) : IsExact (α := α) (.integer n) :=
  isExact_of_ne nofun nofun nofun nofun

@[simp]
theorem isExact_string (s : Text.Utf16) : IsExact (α := α) (.string s) :=
  isExact_of_ne nofun nofun nofun nofun

end Value

/-! ### Foreign parts -/

open Value (IsPart)

theorem rereadItems?_eq_none_iff {items : List (Value α)} :
    rereadItems? (β := β) items = none ↔ ∃ item ∈ items, item.reread? (β := β) = none := by
  induction items with
  | nil => simp [rereadItems?]
  | cons item items ih =>
    cases h : item.reread? (β := β) with
    | none => simp [rereadItems?, h]
    | some v => simp [rereadItems?, h, ih]

theorem rereadMembers?_eq_none_iff {members : Members α} :
    rereadMembers? (β := β) members = none ↔
      ∃ member ∈ members, member.2.reread? (β := β) = none := by
  induction members with
  | nil => simp [rereadMembers?]
  | cons member members ih =>
    cases h : member.2.reread? (β := β) with
    | none => simp [rereadMembers?, h]
    | some v => simp [rereadMembers?, h, ih]

/-- A value is not read back just if it has a foreign part. -/
theorem reread?_eq_none_iff (value : Value α) :
    value.reread? (β := β) = none ↔ ∃ part, IsPart (.foreign part) value := by
  induction value using Value.inductOn with
  | array items ih =>
    rw [Value.reread?, Option.map_eq_none_iff, rereadItems?_eq_none_iff]
    constructor
    · rintro ⟨item, hitem, hnone⟩
      obtain ⟨part, hpart⟩ := (ih item hitem).1 hnone
      exact ⟨part, .item hitem hpart⟩
    · rintro ⟨part, hpart⟩
      obtain ⟨item, hitem, hpart⟩ := (Value.isPart_array_iff.1 hpart).resolve_left nofun
      exact ⟨item, hitem, (ih item hitem).2 ⟨part, hpart⟩⟩
  | object members ih =>
    rw [Value.reread?, Option.map_eq_none_iff, rereadMembers?_eq_none_iff]
    constructor
    · rintro ⟨member, hm, hnone⟩
      obtain ⟨part, hpart⟩ := (ih member hm).1 hnone
      exact ⟨part, .member hm hpart⟩
    · rintro ⟨part, hpart⟩
      obtain ⟨member, hm, hpart⟩ := (Value.isPart_object_iff.1 hpart).resolve_left nofun
      exact ⟨member, hm, (ih member hm).2 ⟨part, hpart⟩⟩
  | foreign part => exact ⟨fun _ => ⟨part, .self⟩, fun _ => rfl⟩
  | _ => simp [Value.reread?, Value.isPart_iff_eq]

/-- What is written of a value with a foreign part is no JSON. -/
theorem read_write_eq_none_iff (value : Value α) :
    read (α := β) (write value) = none ↔ ∃ part, IsPart (.foreign part) value := by
  rw [read_write, reread?_eq_none_iff]

theorem isComplete_eq_false_iff {pieces : List (Piece α)} :
    isComplete pieces = false ↔ ∃ part, .foreign part ∈ pieces := by
  rw [isComplete, List.all_eq_false]
  constructor
  · rintro ⟨piece, hmem, hpiece⟩
    cases piece with
    | text chars => simp at hpiece
    | foreign part => exact ⟨part, hmem⟩
  · rintro ⟨part, hmem⟩
    exact ⟨_, hmem, by simp⟩

theorem foreign_mem_layoutItems {part : α} {level : Nat} {items : List (Value α)} :
    .foreign part ∈ layoutItems level items ↔
      ∃ item ∈ items, .foreign part ∈ item.layout (level + 1) := by
  induction items with
  | nil => simp [layoutItems]
  | cons item items ih => simp [layoutItems, ih]

theorem foreign_mem_layoutMembers {part : α} {level : Nat} {members : Members α} :
    .foreign part ∈ layoutMembers level members ↔
      ∃ member ∈ members, .foreign part ∈ member.2.layout (level + 1) := by
  induction members with
  | nil => simp [layoutMembers]
  | cons member members ih => simp [layoutMembers, ih]

/-- The foreign pieces of a value are its foreign parts. -/
theorem foreign_mem_layout_iff {part : α} (value : Value α) (level : Nat) :
    .foreign part ∈ value.layout level ↔ IsPart (.foreign part) value := by
  induction value using Value.inductOn generalizing level with
  | array items ih =>
    rw [Value.isPart_array_iff, or_iff_right nofun]
    have hitems : .foreign part ∈ (Value.array items).layout level ↔
        ∃ item ∈ items, .foreign part ∈ item.layout (level + 1) := by
      cases items <;> simp [Value.layout, foreign_mem_layoutItems]
    exact hitems.trans (exists_congr fun item => and_congr_right fun h => ih item h _)
  | object members ih =>
    rw [Value.isPart_object_iff, or_iff_right nofun]
    have hmembers : .foreign part ∈ (Value.object members).layout level ↔
        ∃ member ∈ members, .foreign part ∈ member.2.layout (level + 1) := by
      cases members <;> simp [Value.layout, foreign_mem_layoutMembers]
    exact hmembers.trans (exists_congr fun member => and_congr_right fun h => ih member h _)
  | bool b => cases b <;> simp [Value.layout, Value.isPart_iff_eq]
  | foreign p => simp [Value.layout, Value.isPart_iff_eq]
  | _ => simp [Value.layout, Value.isPart_iff_eq]

/-- A value cannot be written to its end just if it has a foreign part. -/
theorem isWritable_eq_false_iff (value : Value α) :
    isWritable value = false ↔ ∃ part, IsPart (.foreign part) value := by
  rw [isWritable, isComplete_eq_false_iff]
  simp only [foreign_mem_layout_iff]

/-- Writing stops at the first foreign piece. -/
theorem exists_foreign_of_not_isComplete {pieces : List (Piece α)} (h : isComplete pieces = false) :
    ∃ before part behind, pieces = before ++ .foreign part :: behind ∧ isComplete before = true ∧
      written pieces = written before := by
  induction pieces with
  | nil => cases h
  | cons piece pieces ih =>
    cases piece with
    | text chars =>
      obtain ⟨before, part, behind, rfl, hbefore, hwritten⟩ := ih (by simpa [isComplete] using h)
      exact ⟨.text chars :: before, part, behind, rfl, by simpa [isComplete] using hbefore,
        by rw [written, written, hwritten]⟩
    | foreign part => exact ⟨[], part, pieces, rfl, rfl, rfl⟩

/-! ### Values that are read back -/

namespace Value

theorem nodup_keys_merged (members : Members α) :
    ((Record.setAll (fun a b => a = b) [] (mergedMembers members)).map Prod.fst).Nodup := by
  have hnil : Record.Apart (fun a b : Text.Utf16 => a = b) ([] : Members α) := .nil
  exact Record.apart_eq_iff_nodup.1 hnil.setAll

/-- What holds of the merged value of each member holds of the values of the merged members. -/
theorem forall_mem_merged {p : Value α → Prop} {members : Members α}
    (h : ∀ member ∈ members, p member.2.merged) :
    ∀ member ∈ Record.setAll (fun a b => a = b) [] (mergedMembers members), p member.2 := by
  refine Record.forall_mem_setAll (by simp) fun member hmember => ?_
  rw [mergedMembers_eq_map] at hmember
  obtain ⟨spelled, hspelled, rfl⟩ := List.mem_map.1 hmember
  exact h spelled hspelled

/-- What a text without doubles spells is written and read unchanged once it is merged. -/
theorem isExact_merged (value : Value α) (hforeign : ∀ part, ¬ IsPart (.foreign part) value)
    (hdouble : ∀ d, ¬ IsPart (.double d) value) : value.merged.IsExact := by
  induction value using Value.inductOn with
  | array items ih =>
    rw [merged, mergedItems_eq_map]
    refine isExact_array_iff.2 (List.forall_mem_map.2 fun item hitem => ?_)
    exact ih item hitem (fun part h => hforeign part (.item hitem h))
      fun d h => hdouble d (.item hitem h)
  | object members ih =>
    refine isExact_object_iff.2
      ⟨nodup_keys_merged members, forall_mem_merged fun member hmember => ?_⟩
    exact ih member hmember (fun part h => hforeign part (.member hmember h))
      fun d h => hdouble d (.member hmember h)
  | double d => exact absurd .self (hdouble d)
  | foreign part => exact absurd .self (hforeign part)
  | _ => exact isExact_of_ne nofun nofun nofun nofun

end Value

end ArithTree.Json
