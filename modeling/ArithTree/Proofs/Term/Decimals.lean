import ArithTree.Proofs.Display.Labels
import ArithTree.Proofs.Json.Numbers
import ArithTree.Proofs.Term.Grammar
import Mathlib.Data.List.Basic

/-!
# Decimals and their texts

The text of a decimal is a numeral, with an exponent behind it if the decimal is small. Reading the
numeral and moving the point by the exponent gives the decimal back, so decimals of one text have
the same digits and the same scale.

* `exists_numeral_text` : the numeral and the exponent of a text.
* `text_injective` : different decimals have different texts.
* `isLabel_text` : a text is the label of a number.
-/

namespace ArithTree.Decimal

open Term (Numeral)
open Text (natOfDigits InNumeral)

theorem natOfDigits_zeros_append (n : Nat) (digits : List Char) :
    natOfDigits (List.replicate n '0' ++ digits) = natOfDigits digits := by
  induction n with
  | zero => rfl
  | succ n ih => exact ih

/-- A positional text is a numeral for the decimal. -/
theorem numeral_positional (d : Decimal) : Numeral d.positional d := by
  unfold positional
  extract_lets padded whole
  have hdigits : ∀ c ∈ padded, c.isDigit := by
    refine List.forall_mem_append.2 ⟨fun c hc => ?_, Json.isDigit_of_mem_toDigits⟩
    rw [List.eq_of_mem_replicate hc]
    rfl
  have hvalue : natOfDigits padded = d.coefficient := by
    rw [natOfDigits_zeros_append, digits, Json.natOfDigits_toDigits]
  have hlength : d.scale < padded.length := by
    rw [List.length_append, List.length_replicate]
    omega
  split
  · next hscale =>
    have hnumeral := Numeral.whole (List.ne_nil_of_length_pos (by omega)) hdigits
    rwa [hvalue, ← hscale] at hnumeral
  · have hwhole : padded.take whole ≠ [] := by
      refine List.ne_nil_of_length_pos ?_
      rw [List.length_take]
      omega
    have hnumeral := Numeral.fraction hwhole (fun c hc => hdigits c (List.mem_of_mem_take hc))
      (fun c (hc : c ∈ padded.drop whole) => hdigits c (List.mem_of_mem_drop hc))
    rwa [List.take_append_drop, hvalue, List.length_drop, Nat.sub_sub_self hlength.le] at hnumeral

/-- What stands before the exponent is a numeral for the digits with the point behind the first. -/
theorem numeral_mantissa (d : Decimal) :
    Numeral (d.digits.take 1 ++ if d.digits.drop 1 = [] then [] else '.' :: d.digits.drop 1)
      ⟨d.coefficient, d.digits.length - 1⟩ := by
  have hdigits : ∀ c ∈ d.digits, c.isDigit := Json.isDigit_of_mem_toDigits
  have hvalue : natOfDigits d.digits = d.coefficient := Json.natOfDigits_toDigits d.coefficient
  cases hcases : d.digits with
  | nil => exact absurd hcases Nat.toDigits_ne_nil
  | cons first fraction =>
    rw [hcases] at hdigits hvalue
    obtain ⟨hfirst, hfraction⟩ := List.forall_mem_cons.1 hdigits
    have hsingle : ∀ c ∈ [first], c.isDigit := List.forall_mem_singleton.2 hfirst
    rw [← hvalue]
    cases fraction with
    | nil => exact .whole (List.cons_ne_nil first []) hsingle
    | cons second fraction => exact .fraction (List.cons_ne_nil first []) hsingle hfraction

/-- A text is a numeral, with an exponent that moves the point if it is not positional. -/
theorem exists_numeral_text (d : Decimal) : ∃ numeral e, Numeral numeral e ∧
    (d.text.toList = numeral ∧ d = e ∨
      ∃ exponent, d.text.toList = numeral ++ 'E' :: '-' :: Nat.toDigits 10 exponent ∧
        d = ⟨e.coefficient, e.scale + exponent⟩) := by
  rw [text, String.toList_ofList]
  split
  · exact ⟨_, d, d.numeral_positional, .inl ⟨rfl, rfl⟩⟩
  · next hpositional =>
    rw [isPositional, decide_eq_true_eq] at hpositional
    have hpos : 0 < d.digits.length := Nat.length_toDigits_pos
    have hscale : d.scale = d.digits.length - 1 + (d.scale + 1 - d.digits.length) := by omega
    exact ⟨_, _, d.numeral_mantissa, .inr ⟨_, rfl, congrArg (mk d.coefficient) hscale⟩⟩

/-! ### Reading a text -/

/-- The number that a numeral and an exponent behind it write. -/
def readText (text : List Char) : Option Decimal :=
  (ofNumeral? (text.takeWhile (· ≠ 'E'))).map fun d =>
    ⟨d.coefficient, d.scale + natOfDigits ((text.dropWhile (· ≠ 'E')).drop 2)⟩

theorem readText_text (d : Decimal) : readText d.text.toList = some d := by
  obtain ⟨numeral, e, hnumeral, h⟩ := d.exists_numeral_text
  -- No numeral has an `E` in it, so the text is cut in front of the exponent.
  have hmantissa : ∀ c ∈ numeral, decide (c ≠ 'E') = true := by
    intro c hc
    refine decide_eq_true ?_
    rintro rfl
    exact absurd (hnumeral.isNumeral.chars 'E' hc) (by simp [InNumeral])
  rcases h with ⟨htext, rfl⟩ | ⟨exponent, htext, rfl⟩
  · rw [htext, readText, List.takeWhile_eq_self_iff.2 hmantissa,
      List.dropWhile_eq_nil_iff.2 hmantissa, hnumeral.value]
    rfl
  · rw [htext, readText, List.takeWhile_append_of_pos hmantissa,
      List.dropWhile_append_of_pos hmantissa, List.takeWhile_cons_of_neg (by simp),
      List.dropWhile_cons_of_neg (by simp), List.append_nil, hnumeral.value]
    simp [Json.natOfDigits_toDigits]

/-- Different decimals have different texts. -/
theorem text_injective {d e : Decimal} (h : d.text = e.text) : d = e := by
  rw [← Option.some_inj, ← readText_text, h, readText_text]

theorem isLabel_text (d : Decimal) : IsLabel .number d.text.toList := by
  obtain ⟨numeral, e, hnumeral, h⟩ := d.exists_numeral_text
  rcases h with ⟨htext, -⟩ | ⟨exponent, htext, -⟩
  · rw [htext]
    exact .of_isNumeral hnumeral.isNumeral
  · obtain ⟨first, hfirst, hdigit⟩ := hnumeral.head
    rw [htext]
    refine .number ⟨first, List.mem_head?_append_of_mem_head? hfirst, .inl hdigit⟩ fun c hc => ?_
    rw [List.mem_append, List.mem_cons, List.mem_cons] at hc
    rcases hc with hc | rfl | rfl | hc
    · exact .inl (hnumeral.isNumeral.chars c hc)
    · exact .inr (.inl rfl)
    · exact .inr (.inr rfl)
    · exact .inl (.inl (Json.isDigit_of_mem_toDigits c hc))

end ArithTree.Decimal
