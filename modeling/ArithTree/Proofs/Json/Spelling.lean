import ArithTree.Proofs.Json.RoundTrip

/-!
# What a text spells

A value is spelled by its lexemes in their order; what stands between the lexemes does not count,
and the members of an object may have equal keys. Reading a text gives the value that it spells,
with the members of equal keys merged, and a text that spells no value is not read at all.

* `Value.spelling`, `Spells` : the lexemes of a value, and the texts that have them.
* `Value.merged` : the value with the members of equal keys merged, the last one at the first place.
* `run_spelling`, `exists_spelling_of_run` : the reader takes the spelling of a value, and no less.
* `read_eq_some_iff` : what is read of a text.
-/

namespace ArithTree.Json

open Text (Utf16)

variable {α : Type}

mutual

/-- The lexemes of a value in their order. -/
def Value.spelling : Value α → List (Lexeme α)
  | .null => [.scalar .null]
  | .bool b => [.scalar (.bool b)]
  | .integer n => [.scalar (.integer n)]
  | .double d => [.scalar (.double d)]
  | .string s => [.string s]
  | .array [] => [.openArray, .closeArray]
  | .array (item :: items) => .openArray :: (item.spelling ++ spellingItems items)
  | .object [] => [.openObject, .closeObject]
  | .object ((key, value) :: members) =>
    .openObject :: .string key :: .colon :: (value.spelling ++ spellingMembers members)
  | .foreign part => [.scalar (.foreign part)]

/-- The lexemes of the further items of an array, up to its end. -/
def spellingItems : List (Value α) → List (Lexeme α)
  | [] => [.closeArray]
  | item :: items => .comma :: (item.spelling ++ spellingItems items)

/-- The lexemes of the further members of an object, up to its end. -/
def spellingMembers : Members α → List (Lexeme α)
  | [] => [.closeObject]
  | (key, value) :: members =>
    .comma :: .string key :: .colon :: (value.spelling ++ spellingMembers members)

end

/-- A text that spells a value. -/
def Spells (text : List Char) (value : Value α) : Prop := lex text = some value.spelling

mutual

/-- A value in whose objects, at any depth, members of equal keys are one, with the value of the
last of them at the place of the first. -/
def Value.merged : Value α → Value α
  | .null => .null
  | .bool b => .bool b
  | .integer n => .integer n
  | .double d => .double d
  | .string s => .string s
  | .array items => .array (mergedItems items)
  | .object members => .object (Record.setAll (fun a b => a = b) [] (mergedMembers members))
  | .foreign part => .foreign part

/-- The items of an array, each of them merged. -/
def mergedItems : List (Value α) → List (Value α)
  | [] => []
  | item :: items => item.merged :: mergedItems items

/-- The members of an object, the value of each merged. -/
def mergedMembers : Members α → Members α
  | [] => []
  | (key, value) :: members => (key, value.merged) :: mergedMembers members

end

theorem mergedItems_eq_map (items : List (Value α)) :
    mergedItems items = items.map Value.merged := by
  induction items with
  | nil => rfl
  | cons item items ih => rw [mergedItems, ih, List.map_cons]

theorem mergedMembers_eq_map (members : Members α) :
    mergedMembers members = members.map fun member => (member.1, member.2.merged) := by
  induction members with
  | nil => rfl
  | cons member members ih => rw [mergedMembers, ih, List.map_cons]

/-! ### Spellings are read -/

section

variable {phase : Phase α} {frames frames' : List (Frame α)} {lexeme : Lexeme α} {value : Value α}

open Reader (run)

/-- A value of one lexeme. -/
theorem Begins.run_atom (h : Begins phase frames frames')
    (hstep : Reader.step.beginValue lexeme frames' = some (.after value, frames'))
    (behind : List (Lexeme α)) :
    run (lexeme :: behind) phase frames = run behind (.after value) frames' := by
  have hl : lexeme ≠ .closeArray := by
    rintro rfl
    cases hstep
  rw [run, h.step hl, hstep, Option.bind_some]

theorem Begins.run_openArray (h : Begins phase frames frames') (behind : List (Lexeme α)) :
    run (.openArray :: behind) phase frames = run behind .firstItem frames' := by
  rw [run, h.step (by simp)]
  rfl

theorem Begins.run_openObject (h : Begins phase frames frames') (behind : List (Lexeme α)) :
    run (.openObject :: behind) phase frames = run behind .firstKey frames' := by
  rw [run, h.step (by simp)]
  rfl

mutual

/-- The reader comes through the spelling of a value, wherever a value may begin. -/
theorem run_spelling (value : Value α) {phase : Phase α} {frames frames' : List (Frame α)}
    (hbegin : Begins phase frames frames') (behind : List (Lexeme α)) :
    run (value.spelling ++ behind) phase frames = run behind (.after value.merged) frames' := by
  match value with
  | .null | .bool _ | .integer _ | .double _ | .string _ | .foreign _ =>
    exact hbegin.run_atom rfl behind
  | .array [] => exact hbegin.run_openArray (.closeArray :: behind)
  | .array (item :: items) =>
    rw [Value.spelling, List.cons_append, hbegin.run_openArray, List.append_assoc,
      run_spelling item (.firstItem frames'), run_spellingItems items]
    rfl
  | .object [] => exact hbegin.run_openObject (.closeObject :: behind)
  | .object ((key, member) :: members) =>
    have hkey (rest : List (Lexeme α)) :
        run (.string key :: .colon :: rest) .firstKey frames' =
          run rest .value (.member [] key :: frames') := rfl
    rw [Value.spelling, List.cons_append, hbegin.run_openObject, List.cons_append,
      List.cons_append, hkey, List.append_assoc, run_spelling member (.value _),
      run_spellingMembers members]
    rfl

/-- The reader comes through the further items of an array. -/
theorem run_spellingItems (items : List (Value α)) {value : Value α} {before : List (Value α)}
    {frames : List (Frame α)} {behind : List (Lexeme α)} :
    run (spellingItems items ++ behind) (.after value) (.array before :: frames) =
      run behind (.after (.array (before.reverse ++ value :: mergedItems items))) frames := by
  match items with
  | [] =>
    rw [mergedItems, ← List.reverse_cons]
    rfl
  | item :: items =>
    have hcomma (rest : List (Lexeme α)) :
        run (.comma :: rest) (.after value) (.array before :: frames) =
          run rest .value (.array (value :: before) :: frames) := rfl
    rw [spellingItems, List.cons_append, hcomma, List.append_assoc, run_spelling item (.value _),
      run_spellingItems items, List.reverse_cons, List.append_assoc, mergedItems]
    rfl

/-- The reader comes through the further members of an object. -/
theorem run_spellingMembers (members : Members α) {value : Value α} {before : Members α}
    {key : Utf16} {frames : List (Frame α)} {behind : List (Lexeme α)} :
    run (spellingMembers members ++ behind) (.after value) (.member before key :: frames) =
      run behind (.after (.object
        (Record.setAll (fun a b => a = b) (before.set key value) (mergedMembers members))))
        frames := by
  match members with
  | [] => rfl
  | (next, member) :: members =>
    have hcomma (rest : List (Lexeme α)) :
        run (.comma :: .string next :: .colon :: rest) (.after value)
            (.member before key :: frames) =
          run rest .value (.member (before.set key value) next :: frames) := rfl
    rw [spellingMembers, List.cons_append, List.cons_append, List.cons_append, hcomma,
      List.append_assoc, run_spelling member (.value _), run_spellingMembers members]
    rfl

end

end

/-! ### Lexemes of a text -/

/-- A value that is one word or number. -/
inductive Value.IsAtom : Value α → Prop where
  | null : IsAtom .null
  | bool (b : Bool) : IsAtom (.bool b)
  | integer (n : Int) : IsAtom (.integer n)
  | double (d : Double) : IsAtom (.double d)

/-- A lexeme whose value, if it is a scalar, is one word or number. -/
def Lexeme.IsPlain : Lexeme α → Prop
  | .scalar value => value.IsAtom
  | _ => True

theorem isAtom_of_readNumber {text rest : List Char} {value : Value α}
    (h : readNumber text = some (value, rest)) : value.IsAtom := by
  simp only [readNumber, Option.map_eq_some_iff] at h
  obtain ⟨_, -, h⟩ := h
  split at h
  · cases h
    exact .integer _
  · cases h
    exact .double _

theorem isAtom_of_readWord {text rest : List Char} {value : Value α}
    (h : readWord text = some (value, rest)) : value.IsAtom := by
  obtain ⟨⟨word, v⟩, hw, h⟩ := List.exists_of_findSome?_eq_some h
  obtain ⟨r, -, h⟩ := Option.map_eq_some_iff.1 h
  cases h
  simp only [words, List.mem_cons, Prod.mk.injEq, List.not_mem_nil, or_false] at hw
  rcases hw with h | h | h | h | h | h <;> rw [h.2] <;> constructor

theorem isPlain_of_lexeme? {c : Char} {rest behind : List Char} {lexeme : Lexeme α}
    (h : lexeme? c rest = some (lexeme, behind)) : lexeme.IsPlain := by
  unfold lexeme? at h
  split at h
  case h_7 =>
    obtain ⟨_, -, h⟩ := Option.map_eq_some_iff.1 h
    cases h
    trivial
  case h_8 =>
    obtain ⟨⟨value, r⟩, hr, h⟩ := Option.map_eq_some_iff.1 h
    cases h
    rcases Option.or_eq_some_iff.1 hr with hr | ⟨_, hr⟩
    · exact isAtom_of_readWord hr
    · exact isAtom_of_readNumber hr
  all_goals cases h; trivial

theorem isPlain_of_lex {text : List Char} {lexemes : List (Lexeme α)}
    (h : lex text = some lexemes) : ∀ lexeme ∈ lexemes, lexeme.IsPlain := by
  fun_induction lex text generalizing lexemes with
  | case1 => cases h; simp
  | case2 c rest _ ih => exact ih h
  | case3 => cases h
  | case4 c rest _ lexeme behind hlexeme ih =>
    obtain ⟨lexemes, hlex, rfl⟩ := Option.map_eq_some_iff.1 h
    exact List.forall_mem_cons.2 ⟨isPlain_of_lexeme? hlexeme, ih hlex⟩

/-! ### What is read is a spelling -/

section

open Reader (run)

variable {lexemes : List (Lexeme α)} {frames : List (Frame α)} {result : Value α}

/-- A first item is read as any other value, below an array without items. -/
theorem run_firstItem {lexeme : Lexeme α} (h : lexeme ≠ .closeArray) :
    run (lexeme :: lexemes) .firstItem frames =
      run (lexeme :: lexemes) .value (.array [] :: frames) := by
  rw [run, run, (Begins.firstItem frames).step h, (Begins.value _).step h]

/-- A key, its colon and a value. -/
theorem exists_key_of_run {members : Members α}
    (h : run lexemes (.key members) frames = some result) :
    ∃ key rest, lexemes = .string key :: .colon :: rest ∧
      run rest .value (.member members key :: frames) = some result := by
  match lexemes, h with
  | .string key :: .colon :: rest, h => exact ⟨key, rest, rfl, h⟩

/-- A first key is read as any other one. -/
theorem run_firstKey (h : ∀ rest, lexemes ≠ .closeObject :: rest) :
    run lexemes .firstKey frames = run lexemes (.key []) frames := by
  match lexemes, h with
  | [], _ => rfl
  | .closeObject :: rest, h => exact absurd rfl (h rest)
  | .string _ :: _, _ | .openObject :: _, _ | .openArray :: _, _ | .closeArray :: _, _
  | .comma :: _, _ | .colon :: _, _ | .scalar _ :: _, _ => rfl

mutual

/-- What the reader takes for a value is the spelling of a value. -/
theorem exists_spelling_of_run (lexemes : List (Lexeme α)) {frames : List (Frame α)}
    {result : Value α} (hplain : ∀ lexeme ∈ lexemes, lexeme.IsPlain)
    (h : run lexemes .value frames = some result) :
    ∃ (value : Value α) (rest : List (Lexeme α)), lexemes = value.spelling ++ rest ∧
      run rest (.after value.merged) frames = some result := by
  match lexemes, h with
  | .string s :: rest, h => exact ⟨.string s, rest, rfl, h⟩
  | .scalar value :: rest, h =>
    cases show value.IsAtom from hplain (.scalar value) (by simp) with
    | null => exact ⟨.null, rest, rfl, h⟩
    | bool b => exact ⟨.bool b, rest, rfl, h⟩
    | integer n => exact ⟨.integer n, rest, rfl, h⟩
    | double d => exact ⟨.double d, rest, rfl, h⟩
  | .openArray :: lexeme :: tail, h =>
    by_cases hclose : lexeme = .closeArray
    · subst hclose
      exact ⟨.array [], tail, rfl, h⟩
    · have hitem : run (lexeme :: tail) .value (.array [] :: frames) = some result := by
        rw [← run_firstItem hclose]
        exact h
      obtain ⟨item, behind, hspelled, hbehind⟩ :=
        exists_spelling_of_run (lexeme :: tail) (List.forall_mem_cons.1 hplain).2 hitem
      have hlength := congrArg List.length hspelled
      rw [List.length_append] at hlength
      obtain ⟨items, rest, hitems, hrest⟩ := exists_spellingItems_of_run behind
        (fun l hl => hplain l (by simp [hspelled, hl])) hbehind
      refine ⟨.array (item :: items), rest, ?_, hrest⟩
      rw [hspelled, hitems, Value.spelling, List.cons_append, List.append_assoc]
  | .openObject :: tail, h =>
    by_cases hclose : ∃ rest, tail = .closeObject :: rest
    · obtain ⟨rest, rfl⟩ := hclose
      exact ⟨.object [], rest, rfl, h⟩
    · have hfirst : run tail (.key []) frames = some result := by
        rw [← run_firstKey fun rest htail => hclose ⟨rest, htail⟩]
        exact h
      obtain ⟨key, inside, hkey, hinside⟩ := exists_key_of_run hfirst
      obtain ⟨value, behind, hspelled, hbehind⟩ := exists_spelling_of_run inside
        (fun l hl => hplain l (by simp [hkey, hl])) hinside
      obtain ⟨members, rest, hmembers, hrest⟩ := exists_spellingMembers_of_run behind
        (fun l hl => hplain l (by simp [hkey, hspelled, hl])) hbehind
      refine ⟨.object ((key, value) :: members), rest, ?_, hrest⟩
      rw [hkey, hspelled, hmembers, Value.spelling]
      simp only [List.cons_append, List.append_assoc]
termination_by lexemes.length
decreasing_by
  all_goals
    subst_vars
    simp only [List.length_cons, List.length_append] at *
    omega

/-- What the reader takes for the further items of an array is the spelling of values. -/
theorem exists_spellingItems_of_run (lexemes : List (Lexeme α)) {value : Value α}
    {before : List (Value α)} {frames : List (Frame α)} {result : Value α}
    (hplain : ∀ lexeme ∈ lexemes, lexeme.IsPlain)
    (h : run lexemes (.after value) (.array before :: frames) = some result) :
    ∃ (items : List (Value α)) (rest : List (Lexeme α)), lexemes = spellingItems items ++ rest ∧
      run rest (.after (.array (before.reverse ++ value :: mergedItems items))) frames =
        some result := by
  match lexemes, h with
  | .closeArray :: rest, h =>
    refine ⟨[], rest, rfl, ?_⟩
    rw [mergedItems, ← List.reverse_cons]
    exact h
  | .comma :: tail, h =>
    obtain ⟨item, behind, hspelled, hbehind⟩ :=
      exists_spelling_of_run tail (List.forall_mem_cons.1 hplain).2 h
    obtain ⟨items, rest, hitems, hrest⟩ := exists_spellingItems_of_run behind
      (fun l hl => hplain l (by simp [hspelled, hl])) hbehind
    refine ⟨item :: items, rest, ?_, ?_⟩
    · rw [hspelled, hitems, spellingItems, List.cons_append, List.append_assoc]
    · rw [List.reverse_cons, List.append_assoc] at hrest
      exact hrest
termination_by lexemes.length
decreasing_by
  all_goals
    subst_vars
    simp only [List.length_cons, List.length_append]
    omega

/-- What the reader takes for the further members of an object is the spelling of members. -/
theorem exists_spellingMembers_of_run (lexemes : List (Lexeme α)) {value : Value α}
    {before : Members α} {key : Utf16} {frames : List (Frame α)} {result : Value α}
    (hplain : ∀ lexeme ∈ lexemes, lexeme.IsPlain)
    (h : run lexemes (.after value) (.member before key :: frames) = some result) :
    ∃ (members : Members α) (rest : List (Lexeme α)),
      lexemes = spellingMembers members ++ rest ∧
      run rest (.after (.object
        (Record.setAll (fun a b => a = b) (before.set key value) (mergedMembers members))))
        frames = some result := by
  match lexemes, h with
  | .closeObject :: rest, h => exact ⟨[], rest, rfl, h⟩
  | .comma :: tail, h =>
    obtain ⟨next, inside, hkey, hinside⟩ := exists_key_of_run h
    obtain ⟨member, behind, hspelled, hbehind⟩ := exists_spelling_of_run inside
      (fun l hl => hplain l (by simp [hkey, hl])) hinside
    obtain ⟨members, rest, hmembers, hrest⟩ := exists_spellingMembers_of_run behind
      (fun l hl => hplain l (by simp [hkey, hspelled, hl])) hbehind
    refine ⟨(next, member) :: members, rest, ?_, hrest⟩
    rw [hkey, hspelled, hmembers, spellingMembers]
    simp only [List.cons_append, List.append_assoc]
termination_by lexemes.length
decreasing_by
  all_goals
    subst_vars
    simp only [List.length_cons, List.length_append]
    omega

end

/-- Behind a complete value with nothing open comes nothing. -/
theorem run_after_nil {value : Value α} (h : run lexemes (.after value) [] = some result) :
    lexemes = [] ∧ result = value := by
  match lexemes, h with
  | [], h => exact ⟨rfl, (Option.some.inj h).symm⟩

end

/-! ### Texts -/

/-- **What is read of a text is the value that it spells**, with the members of equal keys merged;
a text that spells no value is not read. -/
theorem read_eq_some_iff {text : List Char} {value : Value α} :
    read text = some value ↔ ∃ spelled : Value α, Spells text spelled ∧ value = spelled.merged := by
  constructor
  · intro h
    obtain ⟨lexemes, hlex, hrun⟩ := Option.bind_eq_some_iff.1 h
    obtain ⟨spelled, rest, rfl, hrest⟩ := exists_spelling_of_run lexemes (isPlain_of_lex hlex) hrun
    obtain ⟨rfl, rfl⟩ := run_after_nil hrest
    rw [List.append_nil] at hlex
    exact ⟨spelled, hlex, rfl⟩
  · rintro ⟨spelled, hspells, rfl⟩
    have hrun := run_spelling spelled (.value []) []
    rw [List.append_nil] at hrun
    rw [read, show lex text = _ from hspells, Option.bind_some, hrun]
    rfl

theorem read_eq_none_iff {text : List Char} :
    read (α := α) text = none ↔ ∀ value : Value α, ¬ Spells text value := by
  rw [Option.eq_none_iff_forall_ne_some]
  constructor
  · exact fun h value hspells => h _ (read_eq_some_iff.2 ⟨value, hspells, rfl⟩)
  · intro h value hread
    obtain ⟨spelled, hspells, -⟩ := read_eq_some_iff.1 hread
    exact h spelled hspells

end ArithTree.Json
