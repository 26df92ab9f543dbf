import ArithTree.Json.Value
import ArithTree.Text.Hex
import ArithTree.Text.Numeral

/-!
# Lexemes of JSON

A text of JSON is split into punctuation, strings and other scalars. Between lexemes there may be
spaces, tabs, line feeds and carriage returns. Strings hold no control characters; a `\u` escape
stands for one 16-bit unit. A number without fraction and exponent is a whole number of any size.
The words `NaN`, `Infinity` and `-Infinity` are numbers too.

* `lex` : the lexemes of a text; none if it has a place where no lexeme begins.
-/

namespace ArithTree.Json

open Text (Utf16 natOfDigits)

/-- The smallest parts of a text. -/
inductive Lexeme (α : Type) where
  | openObject
  | closeObject
  | openArray
  | closeArray
  | comma
  | colon
  | string (s : Utf16)
  /-- A value that is written as one word or number. -/
  | scalar (value : Value α)

variable {α : Type}

/-- Whether a character may stand between lexemes. -/
def isBlank (c : Char) : Bool := c = ' ' || c = '\t' || c = '\n' || c = '\r'

/-! ### Strings -/

/-- The units that the short escapes stand for. -/
def shortEscapes : List (Char × UInt16) :=
  [('"', 0x22), ('\\', 0x5c), ('/', 0x2f), ('b', 0x08), ('f', 0x0c), ('n', 0x0a), ('r', 0x0d),
    ('t', 0x09)]

/-- The unit that four hexadecimal digits stand for. -/
def unitOfHex? (a b c d : Char) : Option UInt16 := do
  let a ← Text.hexValue? a
  let b ← Text.hexValue? b
  let c ← Text.hexValue? c
  let d ← Text.hexValue? d
  return (((a * 16 + b) * 16 + c) * 16 + d).toUInt16

/-- The units of a string behind its opening mark, and the text behind its closing mark. -/
def readString : List Char → Option (List UInt16 × List Char)
  | [] => none
  | '"' :: rest => some ([], rest)
  | '\\' :: 'u' :: a :: b :: c :: d :: rest => do
    let unit ← unitOfHex? a b c d
    let (units, rest) ← readString rest
    return (unit :: units, rest)
  | '\\' :: escape :: rest => do
    let unit ← shortEscapes.lookup escape
    let (units, rest) ← readString rest
    return (unit :: units, rest)
  | c :: rest =>
    if c.toNat < 0x20 ∨ c = '\\' then none
    else do
      let (units, rest) ← readString rest
      return (Utf16.ofChar c ++ units, rest)

/-! ### Numbers -/

/-- The digits that a text begins with, and the text behind them. -/
def spanDigits (text : List Char) : List Char × List Char :=
  (text.takeWhile Char.isDigit, text.dropWhile Char.isDigit)

/-- The digits before the point, without leading zeros. -/
def readWhole : List Char → Option (List Char × List Char)
  | '0' :: rest => some (['0'], rest)
  | text =>
    match spanDigits text with
    | ([], _) => none
    | span => some span

/-- The digits behind a point, none if there is no point with digits behind it. -/
def readFraction (text : List Char) : List Char × List Char :=
  match text with
  | '.' :: rest =>
    match spanDigits rest with
    | ([], _) => ([], text)
    | span => span
  | _ => ([], text)

/-- Whether a text begins with a minus sign, and the text behind it. -/
def readMinus : List Char → Bool × List Char
  | '-' :: rest => (true, rest)
  | text => (false, text)

/-- Whether a text begins with a minus sign, and the text behind a sign of either kind. -/
def readSign : List Char → Bool × List Char
  | '+' :: rest => (false, rest)
  | text => readMinus text

/-- The number with the given sign. -/
def signed (negative : Bool) (n : Nat) : Int := if negative then -n else n

/-- The exponent of ten, if there is one. -/
def readExponent (text : List Char) : Option Int × List Char :=
  match text with
  | [] => (none, text)
  | e :: rest =>
    if e = 'e' ∨ e = 'E' then
      match spanDigits (readSign rest).2 with
      | ([], _) => (none, text)
      | (digits, behind) => (some (signed (readSign rest).1 (natOfDigits digits)), behind)
    else (none, text)

/-- The number that a text begins with, and the text behind it. -/
def readNumber (text : List Char) : Option (Value α × List Char) :=
  let minus := readMinus text
  (readWhole minus.2).map fun (whole, rest) =>
    let (fraction, rest) := readFraction rest
    let (exponent, rest) := readExponent rest
    let coefficient := natOfDigits (whole ++ fraction)
    match fraction, exponent with
    | [], none => (.integer (signed minus.1 coefficient), rest)
    | _, _ => (.double (.ofDecimal minus.1 coefficient (exponent.getD 0 - fraction.length)), rest)

/-! ### Lexemes -/

/-- The text behind a word that it begins with. -/
def behind? : (word text : List Char) → Option (List Char)
  | [], text => some text
  | _ :: _, [] => none
  | w :: word, c :: text => if w = c then behind? word text else none

theorem behind?_eq_some_iff {word text rest : List Char} :
    behind? word text = some rest ↔ text = word ++ rest := by
  fun_induction behind? word text with
  | case1 => simp [eq_comm]
  | case2 => simp
  | case3 word w text ih => simp [ih]
  | case4 w word c text h => simp [Ne.symm h]

/-- The words that are values. -/
def words : List (List Char × Value α) :=
  [("null".toList, .null), ("true".toList, .bool true), ("false".toList, .bool false),
    ("NaN".toList, .double .undefined), ("Infinity".toList, .double (.infinite false)),
    ("-Infinity".toList, .double (.infinite true))]

/-- The word that a text begins with, and the text behind it. -/
def readWord (text : List Char) : Option (Value α × List Char) :=
  words.findSome? fun (word, value) => (behind? word text).map (value, ·)

/-- The lexeme that begins with `c`, and the text behind it. -/
def lexeme? (c : Char) (rest : List Char) : Option (Lexeme α × List Char) :=
  match c with
  | '{' => some (.openObject, rest)
  | '}' => some (.closeObject, rest)
  | '[' => some (.openArray, rest)
  | ']' => some (.closeArray, rest)
  | ',' => some (.comma, rest)
  | ':' => some (.colon, rest)
  | '"' => (readString rest).map fun (units, rest) => (.string ⟨units⟩, rest)
  | _ =>
    ((readWord (c :: rest)).or (readNumber (c :: rest))).map fun (value, rest) =>
      (.scalar value, rest)

/-! ### Every lexeme takes characters -/

theorem length_readString {text rest : List Char} {units : List UInt16}
    (h : readString text = some (units, rest)) : rest.length < text.length := by
  fun_induction readString text generalizing units rest with
  | case1 => simp at h
  | case2 => cases h; simp
  | case3 a b c d behind ih =>
    simp only [Option.bind_eq_bind, Option.bind_eq_some_iff] at h
    obtain ⟨_, _, ⟨_, r⟩, hr, h⟩ := h
    cases h
    have := ih hr
    simp only [List.length_cons]; omega
  | case4 escape behind _ ih =>
    simp only [Option.bind_eq_bind, Option.bind_eq_some_iff] at h
    obtain ⟨_, _, ⟨_, r⟩, hr, h⟩ := h
    cases h
    have := ih hr
    simp only [List.length_cons]; omega
  | case5 => simp at h
  | case6 c behind _ _ _ _ ih =>
    simp only [Option.bind_eq_bind, Option.bind_eq_some_iff] at h
    obtain ⟨⟨_, r⟩, hr, h⟩ := h
    cases h
    have := ih hr
    simp only [List.length_cons]; omega

theorem length_spanDigits (text : List Char) : (spanDigits text).2.length ≤ text.length :=
  (List.dropWhile_suffix _).length_le

theorem length_readWhole {text whole rest : List Char} (h : readWhole text = some (whole, rest)) :
    rest.length < text.length := by
  unfold readWhole at h
  split at h
  · cases h; simp
  · split at h
    · simp at h
    · next hne =>
      cases h
      simp only [spanDigits] at hne ⊢
      have := congrArg List.length (List.takeWhile_append_dropWhile (p := Char.isDigit) (l := text))
      have : text.takeWhile Char.isDigit ≠ [] := fun h0 => hne _ (by rw [h0])
      have := List.length_pos_iff.2 this
      simp only [List.length_append] at *
      omega

theorem length_readFraction (text : List Char) : (readFraction text).2.length ≤ text.length := by
  unfold readFraction
  split
  · next rest =>
    have := length_spanDigits rest
    split
    · simp
    · simp only [List.length_cons]; omega
  · simp

theorem length_readMinus (text : List Char) : (readMinus text).2.length ≤ text.length := by
  unfold readMinus
  split <;> simp

theorem length_readSign (text : List Char) : (readSign text).2.length ≤ text.length := by
  unfold readSign
  split
  · simp
  · exact length_readMinus _

theorem length_readExponent (text : List Char) : (readExponent text).2.length ≤ text.length := by
  unfold readExponent
  split
  · simp
  · next e rest =>
    have := length_readSign rest
    have := length_spanDigits (readSign rest).2
    split
    · split
      · simp
      · next h =>
        rw [h] at this
        simp only [List.length_cons] at *
        omega
    · simp

theorem length_readNumber {text rest : List Char} {value : Value α}
    (h : readNumber text = some (value, rest)) : rest.length < text.length := by
  simp only [readNumber, Option.map_eq_some_iff] at h
  obtain ⟨⟨whole, behind⟩, hw, h⟩ := h
  have := length_readWhole hw
  have := length_readMinus text
  have := length_readFraction behind
  have := length_readExponent (readFraction behind).2
  have hr : rest = (readExponent (readFraction behind).2).2 := by
    simp only at h
    split at h <;> cases h <;> rfl
  rw [hr]
  omega

theorem length_readWord {text rest : List Char} {value : Value α}
    (h : readWord text = some (value, rest)) : rest.length < text.length := by
  obtain ⟨⟨word, v⟩, hw, h⟩ := List.exists_of_findSome?_eq_some h
  obtain ⟨r, hr, h⟩ := Option.map_eq_some_iff.1 h
  cases h
  have := congrArg List.length (behind?_eq_some_iff.1 hr)
  have : 0 < word.length := by
    simp only [words, List.mem_cons, Prod.mk.injEq, List.not_mem_nil, or_false] at hw
    rcases hw with h | h | h | h | h | h <;> rw [h.1] <;> decide
  simp only [List.length_append] at *
  omega

theorem length_lexeme? {c : Char} {rest behind : List Char} {lexeme : Lexeme α}
    (h : lexeme? c rest = some (lexeme, behind)) : behind.length < (c :: rest).length := by
  unfold lexeme? at h
  split at h
  case h_7 =>
    obtain ⟨⟨units, r⟩, hr, h⟩ := Option.map_eq_some_iff.1 h
    cases h
    exact Nat.lt_succ_of_lt (length_readString hr)
  case h_8 =>
    obtain ⟨⟨value, r⟩, hr, h⟩ := Option.map_eq_some_iff.1 h
    cases h
    rcases Option.or_eq_some_iff.1 hr with hr | ⟨_, hr⟩
    · exact length_readWord hr
    · exact length_readNumber hr
  all_goals cases h; simp

/-- The lexemes of a text. -/
def lex (text : List Char) : Option (List (Lexeme α)) :=
  match text with
  | [] => some []
  | c :: rest =>
    if isBlank c then lex rest
    else match _ : lexeme? c rest with
      | none => none
      | some (lexeme, behind) => (lex behind).map (lexeme :: ·)
termination_by text.length
decreasing_by
  · simp
  · exact length_lexeme? ‹_›

end ArithTree.Json
