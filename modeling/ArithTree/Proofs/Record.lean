import ArithTree.Record
import Mathlib.Data.List.Nodup

/-!
# Laws of records

Keys are compared by a test that need not be equality, but has to be an equivalence. Then setting a
key changes its value alone, and of several settings of a key the last one counts. A key stays where
it was set first. No two keys of a record are one, and setting keys keeps it so; such a record is
determined by the order of its keys and the value of each.

* `get?_set`, `get?_setAll` : the values of a record with keys set.
* `last?`, `get?_setAll_eq_last?` : of several settings of a key the last one counts.
* `keys_setAll` : the order of the keys.
* `Apart.ext` : records with the same keys and values.
* `setAll_setAll` : a record of settings is as good as the settings themselves.
-/

namespace ArithTree.Record

variable {κ β : Type} {same : κ → κ → Bool}

/-- The test says of keys that they are one just as an equivalence does. -/
structure Equates (same : κ → κ → Bool) : Prop where
  refl : ∀ a, same a a
  symm : ∀ {a b}, same a b → same b a
  trans : ∀ {a b c}, same a b → same b c → same a c

theorem Equates.congr {a b : κ} (h : Equates same) (hab : same a b) (c : κ) :
    same a c = same b c :=
  Bool.eq_iff_iff.2 ⟨h.trans (h.symm hab), h.trans hab⟩

/-- No two keys of a record are one. -/
def Apart (same : κ → κ → Bool) (record : List (κ × β)) : Prop :=
  record.Pairwise fun a b => same a.1 b.1 = false

variable {record changes : List (κ × β)} {key other : κ} {value : β}

/-! ### Values -/

theorem get?_set (h : Equates same) :
    get? same other (set same key value record) =
      if same key other then some value else get? same other record := by
  induction record with
  | nil => rfl
  | cons entry record ih =>
    obtain ⟨k, v⟩ := entry
    rw [set]
    by_cases hk : same k key
    · rw [if_pos hk, get?, get?, h.congr hk]
      split <;> rfl
    · rw [if_neg hk, get?, ih, get?]
      by_cases hother : same k other
      · rw [if_pos hother, if_pos hother, if_neg]
        exact fun hkey => hk (h.trans hother (h.symm hkey))
      · rw [if_neg hother, if_neg hother]

@[simp]
theorem get?_nil : get? (β := β) same key [] = none := rfl

theorem get?_eq_none_iff :
    get? same key record = none ↔ ∀ entry ∈ record, same entry.1 key = false := by
  induction record with
  | nil => simp
  | cons entry record ih =>
    rw [List.forall_mem_cons, ← ih, get?]
    cases same entry.1 key <;> simp

@[simp]
theorem setAll_nil_right : setAll same record [] = record := rfl

@[simp]
theorem setAll_cons {k : κ} {v : β} :
    setAll same record ((k, v) :: changes) = setAll same (set same k v record) changes := rfl

/-- Of keys that are told apart by the test, each gets the value that is set. -/
theorem get?_setAll (h : Equates same) (hchanges : Apart same changes) :
    get? same key (setAll same record changes) =
      (get? same key changes).or (get? same key record) := by
  induction changes generalizing record with
  | nil => rfl
  | cons change changes ih =>
    obtain ⟨k, v⟩ := change
    obtain ⟨hk, hchanges⟩ := List.pairwise_cons.1 hchanges
    rw [setAll_cons, ih hchanges, get?_set h, get?]
    by_cases hkey : same k key
    · have hnone : get? same key changes = none := by
        refine get?_eq_none_iff.2 fun entry hentry => ?_
        rw [Bool.eq_false_iff]
        intro hsame
        exact Bool.false_ne_true ((hk entry hentry).symm.trans (h.trans hkey (h.symm hsame)))
      rw [if_pos hkey, if_pos hkey, hnone]
      rfl
    · rw [if_neg hkey, if_neg hkey]

/-- The value that a row of settings gives to a key last. -/
def last? (same : κ → κ → Bool) (key : κ) (changes : List (κ × β)) : Option β :=
  get? same key changes.reverse

theorem get?_append {more : List (κ × β)} :
    get? same key (record ++ more) = (get? same key record).or (get? same key more) := by
  induction record with
  | nil => rfl
  | cons entry record ih =>
    rw [List.cons_append, get?, get?, ih]
    cases same entry.1 key <;> rfl

theorem last?_cons {k : κ} {v : β} :
    last? same key ((k, v) :: changes) =
      (last? same key changes).or (if same k key then some v else none) := by
  rw [last?, List.reverse_cons, get?_append]
  rfl

/-- Of several settings of a key the last one counts. -/
theorem get?_setAll_eq_last? (h : Equates same) :
    get? same key (setAll same record changes) =
      (last? same key changes).or (get? same key record) := by
  induction changes generalizing record with
  | nil => rfl
  | cons change changes ih =>
    obtain ⟨k, v⟩ := change
    rw [setAll_cons, ih, get?_set h, last?_cons, Option.or_assoc]
    cases same k key <;> rfl

/-! ### Entries -/

theorem forall_mem_set {p : β → Prop} (hvalue : p value) (h : ∀ entry ∈ record, p entry.2) :
    ∀ entry ∈ set same key value record, p entry.2 := by
  induction record with
  | nil => simpa [set] using hvalue
  | cons entry record ih =>
    rw [List.forall_mem_cons] at h
    rw [set]
    split
    · exact List.forall_mem_cons.2 ⟨hvalue, h.2⟩
    · exact List.forall_mem_cons.2 ⟨h.1, ih h.2⟩

theorem forall_mem_setAll {p : β → Prop} (h : ∀ entry ∈ record, p entry.2)
    (hchanges : ∀ change ∈ changes, p change.2) :
    ∀ entry ∈ setAll same record changes, p entry.2 := by
  induction changes generalizing record with
  | nil => exact h
  | cons change changes ih =>
    rw [List.forall_mem_cons] at hchanges
    exact ih (forall_mem_set hchanges.1 h) hchanges.2

/-! ### The order of keys -/

/-- Whether a key is among others. -/
def known (same : κ → κ → Bool) (keys : List κ) (key : κ) : Bool := keys.any (same · key)

theorem get?_eq_none_iff_known :
    get? same key record = none ↔ known same (record.map Prod.fst) key = false := by
  rw [get?_eq_none_iff, known, List.any_map, List.any_eq_false]
  simp

/-- A key that is new goes to the end. -/
theorem set_of_new (h : known same (record.map Prod.fst) key = false) :
    set same key value record = record ++ [(key, value)] := by
  induction record with
  | nil => rfl
  | cons entry record ih =>
    obtain ⟨hentry, hrecord⟩ := Bool.or_eq_false_iff.1 h
    rw [set, if_neg (by simpa using hentry), ih hrecord, List.cons_append]

theorem keys_set_of_known (h : known same (record.map Prod.fst) key) :
    (set same key value record).map Prod.fst = record.map Prod.fst := by
  induction record with
  | nil => cases h
  | cons entry record ih =>
    rw [set]
    split
    · rfl
    · next hentry =>
      have hrecord : known same (record.map Prod.fst) key := by simpa [known, hentry] using h
      rw [List.map_cons, ih hrecord, List.map_cons]

theorem keys_set :
    (set same key value record).map Prod.fst =
      if known same (record.map Prod.fst) key then record.map Prod.fst
      else record.map Prod.fst ++ [key] := by
  split
  · next h => exact keys_set_of_known h
  · next h => rw [set_of_new (by simpa using h), List.map_append, List.map_singleton]

/-- Behind the keys of a record come the other keys, each where it is set first. -/
theorem keys_setAll (h : Equates same) :
    (setAll same record changes).map Prod.fst = record.map Prod.fst ++
      ((changes.map Prod.fst).filter fun k => !known same (record.map Prod.fst) k).eraseDupsBy
        same := by
  induction changes generalizing record with
  | nil => exact (List.append_nil _).symm
  | cons change changes ih =>
    obtain ⟨k, v⟩ := change
    rw [setAll_cons, ih, keys_set, List.map_cons]
    split
    · next hknown => rw [List.filter_cons_of_neg (by simpa using hknown)]
    · next hnew =>
      rw [List.filter_cons_of_pos (by simpa using hnew), List.eraseDupsBy_cons, List.filter_filter,
        List.append_assoc, List.singleton_append]
      have hsymm (a : κ) : same k a = same a k := Bool.eq_iff_iff.2 ⟨h.symm, h.symm⟩
      simp [known, hsymm, Bool.and_comm]

/-! ### Records whose keys are apart -/

theorem apart_iff_keys :
    Apart same record ↔ (record.map Prod.fst).Pairwise fun a b => same a b = false := by
  rw [Apart, List.pairwise_map]

theorem Apart.set (h : Apart same record) : Apart same (set same key value record) := by
  rw [apart_iff_keys, keys_set]
  split
  · exact apart_iff_keys.1 h
  · next hnew =>
    refine List.pairwise_append.2 ⟨apart_iff_keys.1 h, List.pairwise_singleton _ _, ?_⟩
    intro k hk other hother
    rw [List.mem_singleton.1 hother]
    simpa using fun hsame => hnew (List.any_eq_true.2 ⟨k, hk, hsame⟩)

theorem Apart.setAll (h : Apart same record) : Apart same (setAll same record changes) := by
  induction changes generalizing record with
  | nil => exact h
  | cons change changes ih => exact ih h.set

/-- An entry holds the value of its key. -/
theorem get?_of_mem (h : Equates same) (hrecord : Apart same record) {entry : κ × β}
    (hentry : entry ∈ record) : get? same entry.1 record = some entry.2 := by
  induction record with
  | nil => cases hentry
  | cons first record ih =>
    obtain ⟨hfirst, hrecord⟩ := List.pairwise_cons.1 hrecord
    rcases List.mem_cons.1 hentry with rfl | hmem
    · rw [get?, if_pos (h.refl _)]
    · rw [get?, if_neg (by simp [hfirst entry hmem]), ih hrecord hmem]

/-- A record is determined by the order of its keys and the value of each. -/
theorem Apart.ext {a b : List (κ × β)} (h : Equates same) (ha : Apart same a) (hb : Apart same b)
    (hkeys : a.map Prod.fst = b.map Prod.fst)
    (hvalues : ∀ key, get? same key a = get? same key b) : a = b := by
  induction a generalizing b with
  | nil => exact (List.map_eq_nil_iff.1 hkeys.symm).symm
  | cons entry a ih =>
    obtain ⟨k, v⟩ := entry
    cases b with
    | nil => cases hkeys
    | cons entry b =>
      obtain ⟨k', w⟩ := entry
      obtain ⟨hkey, htail⟩ := List.cons.inj hkeys
      cases hkey
      obtain ⟨hk, ha⟩ := List.pairwise_cons.1 ha
      obtain ⟨hk', hb⟩ := List.pairwise_cons.1 hb
      have hvalue := hvalues k
      rw [get?, get?, if_pos (h.refl k), if_pos (h.refl k)] at hvalue
      -- Behind the first entry there is nothing for its key.
      have hnone {rest : List (κ × β)} (hrest : ∀ entry ∈ rest, same k entry.1 = false) {key : κ}
          (hkey : same k key) : get? same key rest = none :=
        get?_eq_none_iff.2 fun entry hentry => by
          rw [← hrest entry hentry, Bool.eq_iff_iff]
          exact ⟨fun hsame => h.trans hkey (h.symm hsame), fun hsame => h.trans (h.symm hsame) hkey⟩
      rw [Option.some.inj hvalue, ih ha hb htail fun key => ?_]
      by_cases hkey : same k key
      · rw [hnone hk hkey, hnone hk' hkey]
      · have hrest := hvalues key
        rwa [get?, get?, if_neg hkey, if_neg hkey] at hrest

/-- Setting a key in settings or behind them comes to the same. -/
theorem setAll_set (h : Equates same) (hrecord : Apart same record)
    (hchanges : Apart same changes) :
    setAll same record (set same key value changes) =
      set same key value (setAll same record changes) := by
  cases hknown : known same (changes.map Prod.fst) key with
  | false =>
    rw [set_of_new hknown]
    exact List.foldl_append ..
  | true =>
    refine Apart.ext h hrecord.setAll hrecord.setAll.set ?_ fun other => ?_
    · rw [keys_setAll h, keys_set_of_known hknown, ← keys_setAll h, keys_set_of_known]
      rw [← Bool.not_eq_false, ← get?_eq_none_iff_known, get?_setAll h hchanges,
        Option.or_eq_none_iff, not_and_or, get?_eq_none_iff_known, hknown]
      exact .inl (by simp)
    · rw [get?_setAll h hchanges.set, get?_set h, get?_set h, get?_setAll h hchanges]
      split <;> rfl

/-- A record of settings is as good as the settings themselves. -/
theorem setAll_setAll (h : Equates same) (hrecord : Apart same record) {more : List (κ × β)}
    (hchanges : Apart same changes) :
    setAll same record (setAll same changes more) =
      setAll same (setAll same record changes) more := by
  induction more generalizing changes with
  | nil => rfl
  | cons entry more ih =>
    rw [setAll_cons, setAll_cons, ih hchanges.set, setAll_set h hrecord hchanges]

theorem apart_eq_iff_nodup [DecidableEq κ] :
    Apart (fun a b => a = b) record ↔ (record.map Prod.fst).Nodup := by
  rw [apart_iff_keys]
  simp [List.Nodup]

end ArithTree.Record
