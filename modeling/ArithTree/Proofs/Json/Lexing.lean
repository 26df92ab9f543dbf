import ArithTree.Json.Read
import ArithTree.Proofs.Json.Numbers

/-!
# The lexemes of what is written

Every part of a written value is a row of lexemes, whatever comes behind it; only a number needs a
text behind it that does not continue it. Blanks between lexemes do not count.

* `lex_writtenString`, `lex_writtenInteger`, `lex_writtenDouble` : strings and numbers.
* `lex_newLine` : a new line with its indentation.
-/

namespace ArithTree.Json

open Text (Utf16)

variable {α : Type} {c : Char} {text rest behind : List Char}

/-! ### Strings -/

theorem hexValue?_digitChar : ∀ n < 16, Text.hexValue? n.digitChar = some n := by decide

/-- A unit from its hexadecimal digits. -/
theorem exists_hexDigits (unit : UInt16) :
    ∃ a b c d, Text.hexDigits 4 unit.toNat = [a, b, c, d] ∧
      unitOfHex? a b c d = some unit := by
  refine ⟨_, _, _, _, rfl, ?_⟩
  have hunit := unit.toNat_lt
  have hdigits : ((unit.toNat / 16 / 16 / 16 % 16 * 16 + unit.toNat / 16 / 16 % 16) * 16 +
      unit.toNat / 16 % 16) * 16 + unit.toNat % 16 = unit.toNat := by omega
  simp only [unitOfHex?, hexValue?_digitChar _ (Nat.mod_lt _ (by decide : 0 < 16)),
    Option.bind_eq_bind, Option.bind_some, Option.pure_def, hdigits]
  simp

theorem readString_short {escape : Char} {unit : UInt16} (hu : escape ≠ 'u')
    (h : shortEscapes.lookup escape = some unit) :
    readString ('\\' :: escape :: text) =
      (readString text).map fun (units, rest) => (unit :: units, rest) := by
  rw [readString.eq_4 _ _ fun _ _ _ _ _ he => absurd he hu, h]
  cases readString text <;> rfl

theorem readString_plain (hmark : c ≠ '"') (hslash : c ≠ '\\') (hc : 0x20 ≤ c.toNat) :
    readString (c :: text) =
      (readString text).map fun (units, rest) => (Utf16.ofChar c ++ units, rest) := by
  rw [readString.eq_5 _ _ hmark (fun _ _ _ _ _ h => absurd h hslash) fun _ _ h => absurd h hslash,
    if_neg (by simp [hslash]; omega)]
  cases readString text <;> rfl

theorem readString_hexDigits (unit : UInt16) :
    readString ('\\' :: 'u' :: (Text.hexDigits 4 unit.toNat ++ text)) =
      (readString text).map fun (units, rest) => (unit :: units, rest) := by
  obtain ⟨a, b, c, d, hdigits, hunit⟩ := exists_hexDigits unit
  rw [hdigits]
  simp only [List.cons_append, List.nil_append, readString, hunit, Option.bind_eq_bind,
    Option.bind_some]
  cases readString text <;> rfl

theorem toNat_ofNat {n : Nat} (h : n < 0xD800) : (Char.ofNat n).toNat = n := by
  rw [Char.ofNat, dif_pos (.inl h)]
  rfl

theorem readString_writtenUnit (unit : UInt16) :
    readString (writtenUnit unit ++ text) =
      (readString text).map fun (units, rest) => (unit :: units, rest) := by
  unfold writtenUnit
  split_ifs with h₁ h₂ h₃ h₄ h₅ h₆ h₇ h₈
  case pos => exact readString_short (by decide) (by rw [h₁]; rfl)
  case pos => exact readString_short (by decide) (by rw [h₂]; rfl)
  case pos => exact readString_short (by decide) (by rw [h₃]; rfl)
  case pos => exact readString_short (by decide) (by rw [h₄]; rfl)
  case pos => exact readString_short (by decide) (by rw [h₅]; rfl)
  case pos => exact readString_short (by decide) (by rw [h₆]; rfl)
  case pos => exact readString_short (by decide) (by rw [h₇]; rfl)
  case pos =>
    have hlow : 0x20 ≤ unit.toNat := h₈.1
    have hhigh : unit.toNat < 0x7f := h₈.2
    have hc := toNat_ofNat (n := unit.toNat) (by omega)
    have hunit : Utf16.ofChar (Char.ofNat unit.toNat) = [unit] := by
      rw [Utf16.ofChar, hc, if_pos (by omega), Nat.toUInt16_eq, UInt16.ofNat_toNat]
    rw [List.singleton_append, readString_plain, hunit]
    · rfl
    · intro h
      exact h₁ (UInt16.toNat_inj.1 (by rw [← hc, h]; rfl))
    · intro h
      exact h₂ (UInt16.toNat_inj.1 (by rw [← hc, h]; rfl))
    · rwa [hc]
  case neg => exact readString_hexDigits unit

/-- The units of a written string are read back. -/
theorem readString_written (units : List UInt16) :
    readString (units.flatMap writtenUnit ++ '"' :: rest) = some (units, rest) := by
  induction units with
  | nil => rfl
  | cons unit units ih =>
    rw [List.flatMap_cons, List.append_assoc, readString_writtenUnit, ih]
    rfl
/-! ### One lexeme after the other -/

@[simp]
theorem lex_nil : lex (α := α) [] = some [] := by rw [lex]

theorem lex_blank (h : isBlank c) : lex (α := α) (c :: text) = lex text := by
  rw [lex, if_pos h]

theorem lex_cons {lexeme : Lexeme α} (hc : isBlank c = false)
    (h : lexeme? c text = some (lexeme, rest)) :
    lex (c :: text) = (lex rest).map (lexeme :: ·) := by
  rw [lex, if_neg (by simp [hc])]
  split
  · next hnone => rw [h] at hnone; cases hnone
  · next hsome => rw [h] at hsome; cases hsome; rfl

theorem lex_eq_some_cons {lexeme : Lexeme α} {lexemes : List (Lexeme α)} (hc : isBlank c = false)
    (h : lexeme? c text = some (lexeme, rest)) (hrest : lex rest = some lexemes) :
    lex (c :: text) = some (lexeme :: lexemes) := by
  rw [lex_cons hc h, hrest, Option.map_some]

theorem lex_spaces (n : Nat) : lex (α := α) (List.replicate n ' ' ++ text) = lex text := by
  induction n with
  | zero => rfl
  | succ n ih => rw [List.replicate_succ, List.cons_append, lex_blank (by decide), ih]

@[simp]
theorem lex_newLine (level : Nat) : lex (α := α) (newLine level ++ text) = lex text := by
  rw [newLine, List.cons_append, lex_blank (by decide), lex_spaces]

@[simp]
theorem lex_writtenString (s : Utf16) :
    lex (α := α) (writtenString s ++ text) = (lex text).map (.string s :: ·) := by
  rw [writtenString, List.cons_append, List.cons_append, List.append_assoc,
    List.singleton_append]
  refine lex_cons (by decide) ?_
  show (readString _).map _ = _
  rw [readString_written]
  rfl

/-! ### Words and numbers -/

theorem lex_null : lex (α := α) ("null".toList ++ text) = (lex text).map (.scalar .null :: ·) :=
  lex_cons (by decide) rfl

theorem lex_true :
    lex (α := α) ("true".toList ++ text) = (lex text).map (.scalar (.bool true) :: ·) :=
  lex_cons (by decide) rfl

theorem lex_false :
    lex (α := α) ("false".toList ++ text) = (lex text).map (.scalar (.bool false) :: ·) :=
  lex_cons (by decide) rfl

/-- A number begins with a digit, or with a minus sign and a digit, and so no word begins there. -/
theorem lex_of_readNumber {negative : Bool} {d : Char} {value : Value α} (hd : d.isDigit)
    (h : readNumber ((if negative then ['-'] else []) ++ d :: text) = some (value, rest)) :
    lex ((if negative then ['-'] else []) ++ d :: text) =
      (lex rest).map (.scalar value :: ·) := by
  have hne : ∀ c, c.isDigit = false → d ≠ c := by
    rintro c hc rfl
    rw [hc] at hd
    cases hd
  cases negative with
  | true =>
    have hword : readWord (α := α) ('-' :: d :: text) = none := by
      simp [readWord, words, behind?, (hne 'I' rfl).symm]
    refine lex_cons (by decide) ?_
    show ((readWord ('-' :: d :: text)).or (readNumber ('-' :: d :: text))).map _ = _
    rw [hword, Option.none_or]
    exact congrArg _ h
  | false =>
    have hword : readWord (α := α) (d :: text) = none := by
      simp [readWord, words, behind?, (hne 'n' rfl).symm, (hne 't' rfl).symm, (hne 'f' rfl).symm,
        (hne 'N' rfl).symm, (hne 'I' rfl).symm, (hne '-' rfl).symm]
    have hblank : isBlank d = false := by
      simp [isBlank, hne ' ' rfl, hne '\t' rfl, hne '\n' rfl, hne '\r' rfl]
    refine lex_cons hblank ?_
    unfold lexeme?
    split
    case h_8 =>
      rw [hword, Option.none_or]
      exact congrArg _ h
    all_goals exact absurd hd (by decide)

theorem lex_writtenInteger (n : Int) (h : EndsNumber text) :
    lex (α := α) (writtenInteger n ++ text) = (lex text).map (.scalar (.integer n) :: ·) := by
  obtain ⟨d, tail, hdigits, hd⟩ := (isWhole_toDigits n.natAbs).exists_digit
  have hminus : (if n < 0 then ['-'] else []) = if decide (n < 0) then ['-'] else [] := by simp
  have hread := readNumber_writtenInteger (α := α) n h
  rw [writtenInteger, hminus, hdigits, List.append_assoc, List.cons_append] at hread ⊢
  exact lex_of_readNumber hd hread

/-- What is written of a double is read as one double, wherever it ends. -/
theorem exists_lex_writtenDouble (d : Double) :
    ∃ e : Double, ∀ (α : Type) (text : List Char), EndsNumber text →
      lex (α := α) (writtenDouble d ++ text) = (lex text).map (.scalar (.double e) :: ·) := by
  match d with
  | .undefined => exact ⟨.undefined, fun α text _ => lex_cons (by decide) rfl⟩
  | .infinite true => exact ⟨.infinite true, fun α text _ => lex_cons (by decide) rfl⟩
  | .infinite false => exact ⟨.infinite false, fun α text _ => lex_cons (by decide) rfl⟩
  | .finite negative significand exponent =>
    obtain ⟨decimal, hdecimal, htext⟩ := exists_isDecimal_finiteText negative significand exponent
    obtain ⟨e, hread⟩ := hdecimal.exists_readNumber negative
    obtain ⟨c, tail, rfl, hc⟩ := hdecimal.exists_digit
    refine ⟨e, fun α text h => ?_⟩
    have := hread α text h
    rw [writtenDouble, Double.textWith, htext, List.append_assoc, List.cons_append] at *
    exact lex_of_readNumber hc this

/-- The double that is read from what is written of a double. -/
def rereadDouble (d : Double) : Double :=
  match lex (α := Empty) (writtenDouble d) with
  | some [.scalar (.double e)] => e
  | _ => d

theorem lex_writtenDouble (d : Double) (h : EndsNumber text) :
    lex (α := α) (writtenDouble d ++ text) =
      (lex text).map (.scalar (.double (rereadDouble d)) :: ·) := by
  obtain ⟨e, he⟩ := exists_lex_writtenDouble d
  have hd : rereadDouble d = e := by
    have hlex := he Empty [] (by simp [EndsNumber])
    rw [List.append_nil, lex_nil] at hlex
    rw [rereadDouble, hlex]
    rfl
  rw [hd]
  exact he α text h

end ArithTree.Json
