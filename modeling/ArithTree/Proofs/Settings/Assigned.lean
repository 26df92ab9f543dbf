import ArithTree.Proofs.Results
import ArithTree.Proofs.Settings.Named

/-!
# What a file assigns

A file may assign values to keys by an object, or by a list of pairs, where a pair is a list of two
values, a string of two characters or an object of two members, whose keys are meant; an empty list
and an empty string assign nothing. Keys of equal value are one, and a key that is assigned several
times has the last value. No default goes away, whatever is assigned.

* `IsPair`, `Assigns` : what a value assigns, in order.
* `Table.Arranges` : the defaults with what is assigned.
* `Slot.table_eq_ok_iff` : the settings of a file, from what it assigns.
* `Slot.arranges_of_setting` : every table of settings has all the defaults in front.
-/

namespace ArithTree.Text.Utf16

theorem groups_of_mem_groups {units group : List UInt16} (h : group ∈ groups units) :
    groups group = [group] := by
  fun_induction groups units with
  | case1 => cases h
  | case2 unit => rw [List.mem_singleton.1 h, groups]
  | case3 high low units hpair ih =>
    rcases List.mem_cons.1 h with rfl | h
    · rw [groups, if_pos hpair, groups]
    · exact ih h
  | case4 high low units _ ih =>
    rcases List.mem_cons.1 h with rfl | h
    · rw [groups]
    · exact ih h

/-- A character of a text is a text of one character. -/
theorem characters_of_mem_characters {t character : Utf16} (h : character ∈ t.characters) :
    character.characters = [character] := by
  obtain ⟨group, hgroup, rfl⟩ := List.mem_map.1 h
  rw [characters, groups_of_mem_groups hgroup, List.map_singleton]

theorem eq_nil_of_characters_eq_nil {t : Utf16} (h : t.characters = []) : t = ⟨[]⟩ := by
  obtain ⟨units⟩ := t
  have hgroups := List.map_eq_nil_iff.1 h
  match units with
  | [] => rfl
  | [unit] => cases hgroups
  | high :: low :: units =>
    simp only [groups] at hgroups
    split at hgroups <;> cases hgroups

end ArithTree.Text.Utf16

namespace ArithTree.Settings

open Json (Document Members Value)
open Text (Utf16)

variable {α : Type}

/-! ### Pairs -/

/-- A value that stands for a key with a value. -/
inductive IsPair : Value α → Key × Value α → Prop where
  | list {first second : Value α} {key : Key} (h : Key.ofValue? first = some key) :
    IsPair (.array [first, second]) (key, second)
  | string {s first second : Utf16} (h : s.characters = [first, second]) :
    IsPair (.string s) (.text first, .string second)
  | object {first second : Utf16} (v w : Value α) :
    IsPair (.object [(first, v), (second, w)]) (.text first, .string second)

theorem pairOf_eq_ok_iff {index : Nat} {pair : Value α} {setting : Key × Value α} :
    pairOf index pair = .ok setting ↔ IsPair pair setting := by
  constructor
  · intro h
    unfold pairOf at h
    split at h
    · cases h
    · next first second hparts =>
      split at h
      · cases h
      · next key hkey =>
        cases h
        cases pair with
        | array items =>
          cases hparts
          exact .list hkey
        | string s =>
          obtain ⟨a, rest, hs, rfl, hrest⟩ := List.map_eq_cons_iff.1 (Option.some.inj hparts)
          obtain ⟨b, rfl, rfl⟩ := List.map_eq_singleton_iff.1 hrest
          cases hkey
          exact .string hs
        | object members =>
          obtain ⟨⟨a, v⟩, rest, rfl, rfl, hrest⟩ :=
            List.map_eq_cons_iff.1 (Option.some.inj hparts)
          obtain ⟨⟨b, w⟩, rfl, rfl⟩ := List.map_eq_singleton_iff.1 hrest
          cases hkey
          exact .object v w
        | _ => cases hparts
    · cases h
  · intro h
    cases h with
    | list hkey => simp only [pairOf, parts?, hkey]
    | string hcharacters => simp only [pairOf, parts?, hcharacters, List.map, Key.ofValue?]
    | object v w => rfl

theorem pairsOf_eq_ok_iff {index : Nat} {pairs : List (Value α)}
    {settings : List (Key × Value α)} :
    pairsOf index pairs = .ok settings ↔ List.Forall₂ IsPair pairs settings := by
  induction pairs generalizing index settings with
  | nil => simp [pairsOf, eq_comm]
  | cons pair pairs ih =>
    rw [pairsOf, List.forall₂_cons_left_iff, bind_eq_ok_iff]
    simp only [pairOf_eq_ok_iff, map_eq_ok_iff, ih]
    constructor
    · rintro ⟨setting, hpair, settings, hpairs, rfl⟩
      exact ⟨setting, settings, hpair, hpairs, rfl⟩
    · rintro ⟨setting, settings, hpair, hpairs, rfl⟩
      exact ⟨setting, hpair, settings, hpairs, rfl⟩

/-! ### Whole values -/

/-- What a value that is spelled in a file assigns, in order. -/
inductive Assigns : Value α → List (Key × Value α) → Prop where
  | object (members : Members α) :
    Assigns (.object members) (members.map fun member => (.text member.1, member.2.merged))
  | list {items : List (Value α)} {changes : List (Key × Value α)}
    (h : List.Forall₂ IsPair (items.map Value.merged) changes) : Assigns (.array items) changes
  | emptyString : Assigns (.string ⟨[]⟩) []

/-- No character of a string is a pair, so that only the empty string can be taken for pairs. -/
theorem assignments_string_eq_ok_iff {s : Utf16} {changes : List (Key × Value α)} :
    assignments (.string s) = .ok changes ↔ s = ⟨[]⟩ ∧ changes = [] := by
  have hparts : assignments (α := α) (.string s) = pairsOf 0 (s.characters.map .string) := rfl
  rw [hparts, pairsOf_eq_ok_iff]
  constructor
  · intro h
    cases hcharacters : s.characters with
    | nil =>
      rw [hcharacters, List.map_nil, List.forall₂_nil_left_iff] at h
      exact ⟨Text.Utf16.eq_nil_of_characters_eq_nil hcharacters, h⟩
    | cons character rest =>
      have hmem : character ∈ s.characters := by simp [hcharacters]
      have hone := Text.Utf16.characters_of_mem_characters hmem
      rw [hcharacters, List.map_cons, List.forall₂_cons_left_iff] at h
      obtain ⟨_, _, hpair, -⟩ := h
      cases hpair with
      | string htwo => cases hone.symm.trans htwo
  · rintro ⟨rfl, rfl⟩
    exact .nil

/-! ### Tables -/

theorem equates_same : Record.Equates Key.same where
  refl _ := decide_eq_true rfl
  symm h := decide_eq_true (of_decide_eq_true h).symm
  trans hab hbc := decide_eq_true ((of_decide_eq_true hab).trans (of_decide_eq_true hbc))

theorem apart_defaults : Record.Apart Key.same (defaults (α := α)) :=
  Table.apart_ofMembers nodup_defaultMembers

/-- Members of equal keys may as well be merged before they are set. -/
theorem setAll_ofMembers_merged (members : Members α) :
    defaults.setAll (Table.ofMembers (Record.setAll (fun a b => a = b) [] members)) =
      defaults.setAll (Table.ofMembers members) := by
  have hnil : Record.Apart Key.same ([] : Table α) := .nil
  rw [← Table.setAll_ofMembers]
  exact Record.setAll_setAll equates_same apart_defaults hnil

/-- The settings of a value are the defaults with what it assigns. -/
theorem ofValue_merged_eq_ok_iff {value : Value α} {table : Table α} :
    Table.ofValue value.merged = .ok table ↔
      ∃ changes, Assigns value changes ∧ table = defaults.setAll changes := by
  rw [Table.ofValue, map_eq_ok_iff]
  cases value with
  | object members =>
    have hchanges : members.map (fun member => (Key.text member.1, member.2.merged)) =
        Table.ofMembers (Json.mergedMembers members) := by
      rw [Json.mergedMembers_eq_map, Table.ofMembers, List.map_map]
      rfl
    constructor
    · rintro ⟨_, ⟨⟩, rfl⟩
      exact ⟨_, .object members, hchanges ▸ setAll_ofMembers_merged _⟩
    · rintro ⟨_, ⟨⟩, rfl⟩
      exact ⟨_, rfl, hchanges ▸ setAll_ofMembers_merged _⟩
  | array items =>
    have hparts : assignments (Value.array items).merged = pairsOf 0 (items.map Value.merged) := by
      rw [Value.merged, Json.mergedItems_eq_map]
      rfl
    rw [hparts]
    constructor
    · rintro ⟨changes, hchanges, rfl⟩
      exact ⟨changes, .list (pairsOf_eq_ok_iff.1 hchanges), rfl⟩
    · rintro ⟨changes, ⟨⟩, rfl⟩
      exact ⟨changes, pairsOf_eq_ok_iff.2 ‹_›, rfl⟩
  | string s =>
    constructor
    · rintro ⟨changes, hchanges, rfl⟩
      obtain ⟨rfl, rfl⟩ := assignments_string_eq_ok_iff.1 hchanges
      exact ⟨[], .emptyString, rfl⟩
    · rintro ⟨changes, ⟨⟩, rfl⟩
      exact ⟨[], rfl, rfl⟩
  | _ =>
    constructor
    · rintro ⟨_, ⟨⟩, -⟩
    · rintro ⟨_, ⟨⟩, -⟩

/-- A table of the defaults and of what is assigned to keys, one after the other. -/
structure Table.Arranges (table : Table α) (changes : List (Key × Value α)) : Prop where
  /-- The defaults come first, in their order, and behind them every other key, each where it is
  assigned first. -/
  keys : table.map Prod.fst = (defaults (α := α)).map Prod.fst ++
    ((changes.map Prod.fst).filter fun key =>
      !Record.known Key.same ((defaults (α := α)).map Prod.fst) key).eraseDupsBy Key.same
  /-- Each key has the value that is assigned to it last, or else its default. -/
  values : ∀ entry ∈ table,
    (Record.last? Key.same entry.1 changes).or (defaults.get? entry.1) = some entry.2

theorem get?_setAll_defaults (changes : List (Key × Value α)) (key : Key) :
    (defaults.setAll changes).get? key =
      (Record.last? Key.same key changes).or (defaults.get? key) :=
  Record.get?_setAll_eq_last? equates_same

theorem arranges_setAll (changes : List (Key × Value α)) :
    (defaults.setAll changes).Arranges changes where
  keys := Record.keys_setAll equates_same
  values entry hentry := by
    rw [← get?_setAll_defaults]
    exact Record.get?_of_mem equates_same apart_defaults.setAll hentry

/-- Every default can be looked up, whatever is assigned. -/
theorem get?_setAll_of_mem_defaults (changes : List (Key × Value α)) {entry : Key × Value α}
    (h : entry ∈ defaults) :
    (defaults.setAll changes).get? entry.1 =
      some ((Record.last? Key.same entry.1 changes).getD entry.2) := by
  have hdefault : defaults.get? entry.1 = some entry.2 :=
    Record.get?_of_mem equates_same apart_defaults h
  rw [get?_setAll_defaults, hdefault, Option.or_some]

/-! ### Files -/

/-- What a file assigns, in order; a file that is not there or holds no JSON assigns nothing. -/
inductive Slot.Assigns : Slot → List (Key × Document) → Prop where
  | absent : Slot.Assigns .absent []
  | noJson {bytes : List UInt8} {text : List Char} (htext : Text.Utf8.decode bytes = .ok text)
    (hspells : ∀ value : Document, ¬ Json.Spells text value) : Slot.Assigns (.file bytes) []
  | json {bytes : List UInt8} {text : List Char} {value : Document}
    {changes : List (Key × Document)} (htext : Text.Utf8.decode bytes = .ok text)
    (hspells : Json.Spells text value) (hassigns : Settings.Assigns value changes) :
    Slot.Assigns (.file bytes) changes

namespace Slot

theorem table_of_decode {bytes : List UInt8} {text : List Char}
    (htext : Text.Utf8.decode bytes = .ok text) :
    (file bytes).table = (Table.ofValue ((Json.read (α := α) text).getD (.object []))).mapError
      .unmergeable := by
  rw [table, value_of_decode htext]
  rfl

/-- The settings of a file are the defaults with what it assigns. -/
theorem table_eq_ok_iff {slot : Slot} {table : Table Empty} :
    slot.table = .ok table ↔ ∃ changes, slot.Assigns changes ∧ table = defaults.setAll changes := by
  constructor
  · intro h
    cases slot with
    | absent =>
      cases h
      exact ⟨[], .absent, rfl⟩
    | directory => cases h
    | file bytes =>
      cases htext : Text.Utf8.decode bytes with
      | error fault =>
        rw [Slot.table, value, htext] at h
        cases h
      | ok text =>
        rw [table_of_decode htext] at h
        cases hread : Json.read (α := Empty) text with
        | none =>
          rw [hread] at h
          cases h
          exact ⟨[], .noJson htext (Json.read_eq_none_iff.1 hread), rfl⟩
        | some value =>
          obtain ⟨spelled, hspells, rfl⟩ := Json.read_eq_some_iff.1 hread
          rw [hread, Option.getD_some, mapError_eq_ok_iff] at h
          obtain ⟨changes, hassigns, rfl⟩ := ofValue_merged_eq_ok_iff.1 h
          exact ⟨changes, .json htext hspells hassigns, rfl⟩
  · rintro ⟨changes, hassigns, rfl⟩
    cases hassigns with
    | absent => rfl
    | noJson htext hspells =>
      rw [table_of_decode htext, Json.read_eq_none_iff.2 hspells]
      rfl
    | json htext hspells hassigns =>
      rw [table_of_decode htext, Json.read_eq_some_iff.2 ⟨_, hspells, rfl⟩, Option.getD_some,
        mapError_eq_ok_iff]
      exact ofValue_merged_eq_ok_iff.2 ⟨changes, hassigns, rfl⟩

theorem setting_everything_eq_ok_iff {slot : Slot} {table : Table α} :
    slot.setting everything = .ok (.all table) ↔ slot.table = .ok table := by
  rw [setting, map_eq_ok_iff]
  simp

/-- **No file can take a setting away.** Whatever a file holds, if its settings can be had at all,
then they are all the defaults, in their order and each with the value that the file assigns to it
last, if it does, and behind them the other keys of the file, each where it is assigned first and
with the value that it is assigned last. So every default can be looked up, and the two switches
that the program needs are there. -/
theorem arranges_of_setting {slot : Slot} {table : Table Empty}
    (h : slot.setting everything = .ok (.all table)) :
    (∃ changes, slot.Assigns changes) ∧
      ∀ changes, slot.Assigns changes → table.Arranges changes ∧
        (∀ entry ∈ defaults, table.get? entry.1 =
          some ((Record.last? Key.same entry.1 changes).getD entry.2)) ∧
        ∀ name ∈ ["debug", "multi_digit_tokens"],
          ∃ value, table.get? (.ofName name) = some value := by
  rw [setting_everything_eq_ok_iff] at h
  obtain ⟨changes, hassigns, -⟩ := table_eq_ok_iff.1 h
  refine ⟨⟨changes, hassigns⟩, fun changes hassigns => ?_⟩
  cases h.symm.trans (table_eq_ok_iff.2 ⟨changes, hassigns, rfl⟩)
  refine ⟨arranges_setAll changes, fun entry => get?_setAll_of_mem_defaults changes, ?_⟩
  intro name hname
  obtain ⟨entry, hentry, hkey⟩ : ∃ entry ∈ defaults (α := Empty), entry.1 = Key.ofName name := by
    simp only [List.mem_cons, List.not_mem_nil, or_false] at hname
    rcases hname with rfl | rfl
    · exact ⟨(.ofName "debug", .bool false), by simp [defaults], rfl⟩
    · exact ⟨(.ofName "multi_digit_tokens", .bool false), by simp [defaults], rfl⟩
  exact ⟨_, hkey ▸ get?_setAll_of_mem_defaults changes hentry⟩

/-- A file of pairs that assigns two values to a key. -/
theorem get?_debug_of_pairs :
    ∃ table : Table Empty,
      (ofText "[[\"debug\",null],\"ab\",[\"debug\",true]]".toList).setting everything =
        .ok (.all table) ∧
      table.get? (.ofName "debug") = some (.bool true) := by
  have hspells : Json.Spells (α := Empty) "[[\"debug\",null],\"ab\",[\"debug\",true]]".toList
      (.array [.array [.string (.ofString "debug"), .null], .string (.ofString "ab"),
        .array [.string (.ofString "debug"), .bool true]]) := by
    repeat refine Json.lex_eq_some_cons rfl rfl ?_
    exact Json.lex_nil
  have hassigns : Slot.Assigns (ofText "[[\"debug\",null],\"ab\",[\"debug\",true]]".toList)
      [(.ofName "debug", .null), (.ofName "a", .string (.ofString "b")),
        (.ofName "debug", .bool true)] :=
    .json (Text.Utf8.decode_encode _) hspells
      (.list (.cons (.list rfl) (.cons (.string rfl) (.cons (.list rfl) .nil))))
  have hsetting := setting_everything_eq_ok_iff.2 (table_eq_ok_iff.2 ⟨_, hassigns, rfl⟩)
  obtain ⟨-, hget, -⟩ := (arranges_of_setting hsetting).2 _ hassigns
  exact ⟨_, hsetting, hget (.ofName "debug", .bool false) (by simp [defaults])⟩

end Slot

end ArithTree.Settings
