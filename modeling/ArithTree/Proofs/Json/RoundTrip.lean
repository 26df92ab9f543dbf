import ArithTree.Proofs.Json.Lexing

/-!
# Reading what was written

What is written of a value is read as the value itself, but for its doubles, each of which is read
from its text, and for members of an object with equal keys, of which the last one counts. What is
written of a value with a foreign part is no JSON. What is read has no foreign parts, so their type
is free there.

* `Value.reread?` : what is read of a value, by recursion on the value.
* `read_write` : reading what was written gives just that.
-/

namespace ArithTree.Json

variable {α β : Type}

/-! ### What is read of a value -/

mutual

/-- What is read of what is written of a value; none if there is a foreign part. -/
def Value.reread? : Value α → Option (Value β)
  | .null => some .null
  | .bool b => some (.bool b)
  | .integer n => some (.integer n)
  | .double d => some (.double (rereadDouble d))
  | .string s => some (.string s)
  | .array items => (rereadItems? items).map .array
  | .object members => (rereadMembers? members).map fun members =>
    .object (Record.setAll (fun a b => a = b) [] members)
  | .foreign _ => none

/-- What is read of the items of an array. -/
def rereadItems? : List (Value α) → Option (List (Value β))
  | [] => some []
  | item :: items => item.reread?.bind fun item => (rereadItems? items).map (item :: ·)

/-- What is read of the members of an object, each on its own. -/
def rereadMembers? : Members α → Option (Members β)
  | [] => some []
  | (key, value) :: members =>
    value.reread?.bind fun value => (rereadMembers? members).map ((key, value) :: ·)

end

/-! ### Reading from a state on -/

/-- The value of a text that stands where the reader is in a given state. -/
def readFrom (phase : Phase α) (frames : List (Frame α)) (text : List Char) : Option (Value α) :=
  (lex text).bind fun lexemes => Reader.run lexemes phase frames

variable {phase : Phase α} {frames frames' : List (Frame α)} {text rest : List Char}
  {lexeme : Lexeme α}

theorem readFrom_of_lex (h : lex text = (lex rest).map (lexeme :: ·)) :
    readFrom phase frames text =
      (Reader.step lexeme phase frames).bind fun (phase, frames) => readFrom phase frames rest := by
  rw [readFrom, h]
  cases hrest : lex (α := α) rest with
  | none =>
    cases Reader.step lexeme phase frames with
    | none => rfl
    | some state => simp [readFrom, hrest]
  | some lexemes =>
    simp only [Option.map_some, Option.bind_some, Reader.run, readFrom, hrest]

@[simp]
theorem readFrom_newLine (level : Nat) :
    readFrom phase frames (newLine level ++ text) = readFrom phase frames text := by
  rw [readFrom, lex_newLine, readFrom]

theorem readFrom_nil (h : ∀ value, phase ≠ .after value) : readFrom phase frames [] = none := by
  rw [readFrom, lex_nil, Option.bind_some]
  cases phase with
  | after value => exact absurd rfl (h value)
  | _ => rfl

/-- Where a value may begin, and what is open once it is complete. -/
inductive Begins : Phase α → List (Frame α) → List (Frame α) → Prop where
  | value (frames : List (Frame α)) : Begins .value frames frames
  | firstItem (frames : List (Frame α)) : Begins .firstItem frames (.array [] :: frames)

theorem Begins.step (h : Begins phase frames frames') (hl : lexeme ≠ .closeArray) :
    Reader.step lexeme phase frames = Reader.step.beginValue lexeme frames' := by
  cases h with
  | value => rfl
  | firstItem =>
    cases lexeme with
    | closeArray => exact absurd rfl hl
    | _ => rfl

theorem Begins.readFrom_nil (h : Begins phase frames frames') :
    readFrom phase frames [] = none := by
  cases h <;> exact Json.readFrom_nil (by simp)

/-- A value of one lexeme. -/
theorem Begins.readFrom_atom {value : Value α} (h : Begins phase frames frames')
    (hstep : Reader.step.beginValue lexeme frames' = some (.after value, frames'))
    (hlex : lex text = (lex rest).map (lexeme :: ·)) :
    readFrom phase frames text = readFrom (.after value) frames' rest := by
  have hl : lexeme ≠ .closeArray := by
    rintro rfl
    cases hstep
  rw [readFrom_of_lex hlex, h.step hl, hstep, Option.bind_some]

/-! ### The pieces of arrays and objects -/

section

variable {level : Nat} {key : Text.Utf16} {value : Value α} {items : List (Value α)}
  {members : Members α}

theorem Begins.readFrom_emptyArray (h : Begins phase frames frames') :
    readFrom phase frames ('[' :: ']' :: text) = readFrom (.after (.array [])) frames' text := by
  rw [readFrom_of_lex (lex_cons (by decide) rfl), h.step (by simp)]
  simp only [Reader.step.beginValue, Option.bind_some]
  rw [readFrom_of_lex (lex_cons (by decide) rfl)]
  rfl

theorem Begins.readFrom_openArray (h : Begins phase frames frames') :
    readFrom phase frames ('[' :: (newLine level ++ text)) = readFrom .firstItem frames' text := by
  rw [readFrom_of_lex (lex_cons (by decide) rfl), h.step (by simp)]
  exact readFrom_newLine level

theorem readFrom_nextItem :
    readFrom (.after value) (.array items :: frames) (',' :: (newLine level ++ text)) =
      readFrom .value (.array (value :: items) :: frames) text := by
  rw [readFrom_of_lex (lex_cons (by decide) rfl)]
  exact readFrom_newLine level

theorem readFrom_closeArray :
    readFrom (.after value) (.array items :: frames) (newLine level ++ ']' :: text) =
      readFrom (.after (.array (value :: items).reverse)) frames text := by
  rw [readFrom_newLine, readFrom_of_lex (lex_cons (by decide) rfl)]
  rfl

/-- A key with its colon. -/
theorem readFrom_key (hphase : phase = .firstKey ∧ members = [] ∨ phase = .key members) :
    readFrom phase frames (newLine level ++ (writtenString key ++ ':' :: ' ' :: text)) =
      readFrom .value (.member members key :: frames) text := by
  have hstep : Reader.step (.string key) phase frames = some (.colon members key, frames) := by
    rcases hphase with ⟨rfl, rfl⟩ | rfl <;> rfl
  rw [readFrom_newLine, readFrom_of_lex (lex_writtenString key), hstep, Option.bind_some]
  simp only
  rw [readFrom_of_lex (lex_cons (by decide) rfl)]
  simp only [Reader.step, Option.bind_some]
  rw [readFrom, lex_blank (by decide), readFrom]

theorem Begins.readFrom_emptyObject (h : Begins phase frames frames') :
    readFrom phase frames ('{' :: '}' :: text) = readFrom (.after (.object [])) frames' text := by
  rw [readFrom_of_lex (lex_cons (by decide) rfl), h.step (by simp)]
  simp only [Reader.step.beginValue, Option.bind_some]
  rw [readFrom_of_lex (lex_cons (by decide) rfl)]
  rfl

theorem Begins.readFrom_openObject (h : Begins phase frames frames') :
    readFrom phase frames ('{' :: (newLine level ++ (writtenString key ++ ':' :: ' ' :: text))) =
      readFrom .value (.member [] key :: frames') text := by
  rw [readFrom_of_lex (lex_cons (by decide) rfl), h.step (by simp)]
  exact readFrom_key (.inl ⟨rfl, rfl⟩)

theorem readFrom_nextMember {next : Text.Utf16} :
    readFrom (.after value) (.member members key :: frames)
        (',' :: (newLine level ++ (writtenString next ++ ':' :: ' ' :: text))) =
      readFrom .value (.member (members.set key value) next :: frames) text := by
  rw [readFrom_of_lex (lex_cons (by decide) rfl)]
  exact readFrom_key (.inr rfl)

theorem readFrom_closeObject :
    readFrom (.after value) (.member members key :: frames) (newLine level ++ '}' :: text) =
      readFrom (.after (.object (members.set key value))) frames text := by
  rw [readFrom_newLine, readFrom_of_lex (lex_cons (by decide) rfl)]
  rfl

end

/-! ### Whole values -/

theorem endsNumber_layoutItems (level : Nat) (items : List (Value α)) (close : Char)
    (behind : List (Piece α)) :
    EndsNumber
      (written (layoutItems level items ++ .text (newLine level ++ [close]) :: behind)) := by
  cases items <;> rintro c ⟨⟩ <;> decide

theorem endsNumber_layoutMembers (level : Nat) (members : Members α) (close : Char)
    (behind : List (Piece α)) :
    EndsNumber
      (written (layoutMembers level members ++ .text (newLine level ++ [close]) :: behind)) := by
  cases members <;> rintro c ⟨⟩ <;> decide

mutual

/-- The reader comes through what is written of a value, wherever a value may begin. -/
theorem readFrom_layout (value : Value α) (level : Nat) {phase : Phase β}
    {frames frames' : List (Frame β)} {behind : List (Piece α)}
    (hbegin : Begins phase frames frames') (hbehind : EndsNumber (written behind)) :
    readFrom phase frames (written (value.layout level ++ behind)) =
      value.reread?.bind fun value => readFrom (.after value) frames' (written behind) := by
  match value with
  | .null => exact hbegin.readFrom_atom rfl lex_null
  | .bool true => exact hbegin.readFrom_atom rfl lex_true
  | .bool false => exact hbegin.readFrom_atom rfl lex_false
  | .integer n => exact hbegin.readFrom_atom rfl (lex_writtenInteger n hbehind)
  | .double d => exact hbegin.readFrom_atom rfl (lex_writtenDouble d hbehind)
  | .string s => exact hbegin.readFrom_atom rfl (lex_writtenString s)
  | .array [] => exact hbegin.readFrom_emptyArray
  | .array (item :: items) =>
    simp only [Value.layout, List.cons_append, List.append_assoc, List.nil_append, written]
    rw [hbegin.readFrom_openArray,
      readFrom_layout item _ (.firstItem _) (endsNumber_layoutItems _ _ _ _)]
    simp only [Value.reread?, rereadItems?, readFrom_layoutItems items, Option.bind_map,
      Option.map_bind, Option.bind_assoc, List.reverse_nil, List.nil_append, Function.comp_def]
  | .object [] => exact hbegin.readFrom_emptyObject
  | .object ((key, member) :: members) =>
    simp only [Value.layout, List.cons_append, List.append_assoc, List.nil_append, written]
    rw [hbegin.readFrom_openObject,
      readFrom_layout member _ (.value _) (endsNumber_layoutMembers _ _ _ _)]
    simp only [Value.reread?, rereadMembers?, readFrom_layoutMembers members, Option.bind_map,
      Option.map_bind, Option.bind_assoc, Function.comp_def]
    rfl
  | .foreign part => exact hbegin.readFrom_nil

/-- The reader comes through the further items of an array, up to its end. -/
theorem readFrom_layoutItems (items : List (Value α)) (level : Nat) {value : Value β}
    {before : List (Value β)} {frames : List (Frame β)} {behind : List (Piece α)} :
    readFrom (.after value) (.array before :: frames)
        (written (layoutItems level items ++ .text (newLine level ++ [']']) :: behind)) =
      (rereadItems? items).bind fun items =>
        readFrom (.after (.array (before.reverse ++ value :: items))) frames (written behind) := by
  match items with
  | [] =>
    simp only [layoutItems, List.cons_append, List.append_assoc, List.nil_append, written,
      rereadItems?, Option.bind_some]
    rw [readFrom_closeArray, List.reverse_cons]
  | item :: items =>
    simp only [layoutItems, List.cons_append, List.append_assoc, written]
    rw [readFrom_nextItem,
      readFrom_layout item _ (.value _) (endsNumber_layoutItems _ _ _ _)]
    simp only [rereadItems?, readFrom_layoutItems items, Option.bind_map,
      Option.bind_assoc, List.reverse_cons, List.append_assoc, List.singleton_append,
      Function.comp_def]

/-- The reader comes through the further members of an object, up to its end. -/
theorem readFrom_layoutMembers (members : Members α) (level : Nat) {value : Value β}
    {before : Members β} {key : Text.Utf16} {frames : List (Frame β)} {behind : List (Piece α)} :
    readFrom (.after value) (.member before key :: frames)
        (written (layoutMembers level members ++ .text (newLine level ++ ['}']) :: behind)) =
      (rereadMembers? members).bind fun members =>
        readFrom
          (.after (.object (Record.setAll (fun a b => a = b) (before.set key value) members)))
          frames (written behind) := by
  match members with
  | [] =>
    simp only [layoutMembers, List.cons_append, List.append_assoc, List.nil_append, written,
      rereadMembers?, Option.bind_some]
    rw [readFrom_closeObject]
    rfl
  | (next, member) :: members =>
    simp only [layoutMembers, List.append_assoc, List.nil_append, List.cons_append, written]
    rw [readFrom_nextMember,
      readFrom_layout member _ (.value _) (endsNumber_layoutMembers _ _ _ _)]
    simp only [rereadMembers?, readFrom_layoutMembers members, Option.bind_map,
      Option.bind_assoc, Function.comp_def]
    rfl

end

/-- Reading what was written of a value. -/
theorem read_write (value : Value α) : read (α := β) (write value) = value.reread? := by
  have hend : EndsNumber (written ([] : List (Piece α))) := by simp [EndsNumber, written]
  have h := readFrom_layout (β := β) value 0 (.value []) hend
  rw [List.append_nil] at h
  refine h.trans ?_
  cases value.reread? (β := β) with
  | none => rfl
  | some value => rw [Option.bind_some, written, readFrom, lex_nil]; rfl

end ArithTree.Json
