import ArithTree.Proofs.Term.Decimals
import ArithTree.Proofs.Term.Marks
import Mathlib.Algebra.Order.Field.Rat
import Mathlib.Data.List.Induction
import Mathlib.Data.Nat.Digits.Defs
import Mathlib.Tactic.FieldSimp
import Mathlib.Tactic.Ring

/-!
# Numbers are exact

A number of a tree is the one that its numeral writes, digit by digit, and so is the one that its
label writes. A label is a numeral again unless the number is small. Then it has an exponent, and
the reader, which knows of none, stops at its sign.

* `Denotes` : the number that a text writes, and the exponent of ten of its last digit.
* `Numeral.denotes`, `Decimal.denotes_text` : numerals and labels write exact numbers.
* `Decimal.scan_text_eq_ok`, `Decimal.exists_scan_text_eq_error` : which labels are read again.
* `number_leaf_exact` : the numbers of a tree.
-/

namespace ArithTree

/-! ### Written numbers -/

namespace Text

/-- The whole number that a row of digits writes, the last digit being the one for units. -/
def wholeOf (digits : List Char) : Nat :=
  Nat.ofDigits 10 (digits.reverse.map fun c => c.toNat - '0'.toNat)

/-- The digits of a numeral behind its point. -/
def behindPoint (numeral : List Char) : List Char := (numeral.dropWhile (· ≠ '.')).drop 1

/-- The number that a numeral writes: a whole number and a fraction. -/
def numberOf (numeral : List Char) : ℚ :=
  wholeOf (numeral.takeWhile (· ≠ '.')) +
    wholeOf (behindPoint numeral) / 10 ^ (behindPoint numeral).length

/-- The number that a text writes, and the exponent of ten of its last digit. The text is a numeral,
or a numeral with a negative exponent of ten behind it. -/
inductive Denotes : List Char → ℚ → ℤ → Prop where
  | numeral {s : List Char} (isNumeral : IsNumeral s) :
    Denotes s (numberOf s) (-(behindPoint s).length)
  | scientific {s digits : List Char} (isNumeral : IsNumeral s) (nonempty : digits ≠ [])
    (all : ∀ c ∈ digits, c.isDigit) :
    Denotes (s ++ 'E' :: '-' :: digits) (numberOf s / 10 ^ wholeOf digits)
      (-(behindPoint s).length - wholeOf digits)

/-- A text writes one number. -/
theorem Denotes.unique {s : List Char} {v v' : ℚ} {e e' : ℤ} (h : Denotes s v e)
    (h' : Denotes s v' e') : v = v' ∧ e = e' := by
  have hE {numeral : List Char} (hnumeral : IsNumeral numeral) : 'E' ∉ numeral := fun hmem =>
    absurd (hnumeral.chars 'E' hmem) (by simp [InNumeral])
  generalize hsame : s = t at h'
  cases h with
  | numeral hs =>
    cases h' with
    | numeral =>
      subst hsame
      exact ⟨rfl, rfl⟩
    | scientific => exact absurd (hsame ▸ List.mem_append_right _ List.mem_cons_self) (hE hs)
  | scientific hs =>
    cases h' with
    | numeral ht => exact absurd (hsame ▸ List.mem_append_right _ List.mem_cons_self) (hE ht)
    | scientific ht =>
      obtain ⟨rfl, hdigits⟩ := append_cons_injective (hE hs) (hE ht) hsame
      cases hdigits
      exact ⟨rfl, rfl⟩

theorem Denotes.iff {s : List Char} {v v' : ℚ} {e e' : ℤ} (h : Denotes s v e) :
    Denotes s v' e' ↔ v' = v ∧ e' = e :=
  ⟨fun h' => h'.unique h, fun ⟨hv, he⟩ => hv ▸ he ▸ h⟩

theorem wholeOf_append (s t : List Char) :
    wholeOf (s ++ t) = wholeOf s * 10 ^ t.length + wholeOf t := by
  rw [wholeOf, List.reverse_append, List.map_append, Nat.ofDigits_append, List.length_map,
    List.length_reverse, Nat.add_comm, Nat.mul_comm]
  rfl

theorem natOfDigits_eq_wholeOf (digits : List Char) : natOfDigits digits = wholeOf digits := by
  induction digits using List.reverseRecOn with
  | nil => rfl
  | append_singleton s c ih =>
    have hlast : natOfDigits (s ++ [c]) = 10 * natOfDigits s + (c.toNat - '0'.toNat) := by
      rw [natOfDigits, List.foldl_append]
      rfl
    have hsingle : wholeOf [c] = c.toNat - '0'.toNat := Nat.ofDigits_singleton
    rw [hlast, ih, wholeOf_append, hsingle, List.length_singleton, Nat.pow_one, Nat.mul_comm]

end Text

namespace Decimal

/-- The number that a decimal is. -/
def value (d : Decimal) : ℚ := d.coefficient / 10 ^ d.scale

/-- The exponent of ten of the last digit. -/
def exponent (d : Decimal) : ℤ := -d.scale

end Decimal

namespace Term

open Text

/-! ### Numerals -/

/-- A numeral has its point behind the whole number. -/
theorem Numeral.parts {s : List Char} {d : Decimal} (h : Numeral s d) :
    d.coefficient = wholeOf (s.takeWhile (· ≠ '.') ++ behindPoint s) ∧
      d.scale = (behindPoint s).length := by
  have hkept {digits : List Char} (hall : ∀ c ∈ digits, c.isDigit) :
      ∀ c ∈ digits, decide (c ≠ '.') = true := fun c hc =>
    decide_eq_true (isDigit_ne_point (hall c hc))
  cases h with
  | whole _ all =>
    have htake := List.takeWhile_eq_self_iff.2 (hkept all)
    have hbehind : behindPoint s = [] := by
      rw [behindPoint, List.dropWhile_eq_nil_iff.2 (hkept all), List.drop_nil]
    rw [htake, hbehind, List.append_nil, natOfDigits_eq_wholeOf]
    exact ⟨rfl, rfl⟩
  | @fraction digits behind _ all _ =>
    have hpoint : ∀ c ∈ ('.' :: behind).head?, ¬ decide (c ≠ '.') = true := by simp
    obtain ⟨htake, hdrop⟩ := span_append (hkept all) hpoint
    have hbehind : behindPoint (digits ++ '.' :: behind) = behind := by
      rw [behindPoint, hdrop, List.drop_one, List.tail_cons]
    rw [htake, hbehind, natOfDigits_eq_wholeOf]
    exact ⟨rfl, rfl⟩

theorem Numeral.numberOf_eq {s : List Char} {d : Decimal} (h : Numeral s d) :
    numberOf s = d.value := by
  obtain ⟨hcoefficient, hscale⟩ := h.parts
  rw [Decimal.value, hcoefficient, hscale, numberOf, wholeOf_append]
  push_cast
  field_simp

/-- **A numeral writes the decimal that is read from it.** -/
theorem Numeral.denotes {s : List Char} {d : Decimal} (h : Numeral s d) :
    Denotes s d.value d.exponent := by
  rw [← h.numberOf_eq, Decimal.exponent, h.parts.2]
  exact .numeral h.isNumeral

end Term

/-! ### Labels -/

namespace Decimal

open Term Text

/-- The first digit stands for a power of ten not below `10 ^ -6`. -/
theorem isPositional_iff {d : Decimal} :
    d.isPositional = true ↔ -6 ≤ d.exponent + d.digits.length - 1 := by
  rw [isPositional, decide_eq_true_eq, exponent]
  omega

/-- **The text of a decimal writes it.** -/
theorem denotes_text (d : Decimal) : Denotes d.text.toList d.value d.exponent := by
  obtain ⟨numeral, e, hnumeral, h⟩ := d.exists_numeral_text
  rcases h with ⟨htext, rfl⟩ | ⟨shift, htext, hd⟩
  · rw [htext]
    exact hnumeral.denotes
  · have hshift : wholeOf (Nat.toDigits 10 shift) = shift := by
      rw [← natOfDigits_eq_wholeOf, Json.natOfDigits_toDigits]
    have hvalue : d.value = numberOf numeral / 10 ^ wholeOf (Nat.toDigits 10 shift) := by
      rw [hnumeral.numberOf_eq, hshift, hd, value, value, pow_add, div_div]
    have hexponent : d.exponent =
        -(behindPoint numeral).length - wholeOf (Nat.toDigits 10 shift) := by
      rw [← hnumeral.parts.2, hshift, hd, exponent]
      push_cast
      ring
    rw [htext, hvalue, hexponent]
    exact .scientific hnumeral.isNumeral Nat.toDigits_ne_nil Json.isDigit_of_mem_toDigits

/-- A positional text is read again. -/
theorem scan_text_eq_ok {d : Decimal} (h : d.isPositional) :
    scan d.text = .ok (.term 0 [.mk .number (.decimal d) 0 []]) := by
  have htext : d.text.toList = d.positional := by
    rw [text, String.toList_ofList, if_pos h]
  have hnumeral := d.numeral_positional
  have hreads : Reads ⟨0, d.positional ++ []⟩ (.number d) ⟨0 + d.positional.length, []⟩ :=
    .number hnumeral.isNumeral hnumeral.head endsNumeral_nil hnumeral.value
  rw [List.append_nil, ← htext] at hreads
  exact scan_eq_ok_iff.2 ⟨_, _, _, .cons hreads (.nil _), rfl, .leaf rfl .nil, rfl⟩

/-- The exponent of any other text is taken for an identifier, and the reader stops at its sign. -/
theorem exists_scan_text_eq_error {d : Decimal} (h : ¬ d.isPositional) :
    ∃ p : Nat, scan d.text = .error (.fault ⟨.notInIdentifier '-', some p⟩) := by
  have hnumeral := d.numeral_mantissa
  have htext : d.text.toList = d.scientific := by
    rw [text, String.toList_ofList, if_neg h]
  rw [scientific] at htext
  generalize (d.digits.take 1 ++ if d.digits.drop 1 = [] then [] else '.' :: d.digits.drop 1) =
    mantissa at hnumeral htext
  generalize Nat.toDigits 10 (d.scale + 1 - d.digits.length) = behind at htext
  have hreads : Reads ⟨0, mantissa ++ 'E' :: '-' :: behind⟩ (.number _)
      ⟨0 + mantissa.length, 'E' :: '-' :: behind⟩ :=
    .number hnumeral.isNumeral hnumeral.head (endsNumeral_cons.2 (by simp [InNumeral]))
      hnumeral.value
  have hfails : Fails ⟨0 + mantissa.length, ['E'] ++ '-' :: behind⟩ (.notInIdentifier '-')
      ⟨0 + mantissa.length + 1, '-' :: behind⟩ :=
    .character (List.cons_ne_nil _ _) (List.forall_mem_singleton.2 (by decide)) (by decide)
      (by decide)
  rw [← htext] at hreads
  exact ⟨_, scan_eq_error_iff.2
    ⟨_, _, _, _, _, .cons hreads (.nil _), rfl, .lexeme hfails, rfl⟩⟩

end Decimal

/-! ### Numbers in a text -/

namespace Term

open Text

/-- Every lexeme stands somewhere in the text. -/
theorem Lexes.exists_reads {text : List Char} {a c : Cursor} {items : List Placed}
    (h : Lexes a items c) (hwithin : Within text a) : ∀ item ∈ items, ∃ b b',
      Within text b ∧ Reads b item.lexeme b' ∧ item.position = b.position := by
  induction h with
  | nil => exact List.forall_mem_nil _
  | space _ ih => exact ih (hwithin.slice (s := [' ']) rfl rfl)
  | cons first _ ih =>
    exact List.forall_mem_cons.2 ⟨⟨_, _, hwithin, first, rfl⟩, ih (hwithin.reads first)⟩

/-- A number of a tree is read from the run of digits and points at its place. -/
theorem exists_numeral_of_scan {text : String} {tree leaf : Node} (h : scan text = .ok tree)
    (hleaf : leaf ∈ tree.leaves) (hkind : leaf.kind = .number) : ∃ (p : Nat) (d : Decimal),
      leaf = .mk .number (.decimal d) p [] ∧
      Numeral ((text.toList.drop p).takeWhile isNumeralChar) d := by
  obtain ⟨items, nodes, b, hlexes, -, hnests, rfl⟩ := scan_eq_ok_iff.1 h
  have hmem : leaf ∈ items.filterMap Placed.leaf? := hnests.leavesOf_eq ▸ hleaf
  obtain ⟨⟨lexeme, p⟩, hitem, hmade⟩ := List.mem_filterMap.1 hmem
  obtain ⟨a, c, hwithin, hreads, rfl⟩ := hlexes.exists_reads (within_start text) _ hitem
  cases hreads with
  | opening | closing => cases hmade
  | identifier | operator =>
    cases hmade
    cases hkind
  | @number p numeral rest d isNumeral head ends value =>
    cases hmade
    obtain ⟨before, hsplit, hp⟩ := hwithin
    have hrun : (text.toList.drop p).takeWhile isNumeralChar = numeral := by
      rw [hsplit, show p = before.length from hp, List.drop_left,
        takeWhile_numeral isNumeral.chars ends]
    obtain ⟨e, hnumeral⟩ := exists_numeral isNumeral head
    obtain rfl : d = e := Option.some.inj (value.symm.trans hnumeral.value)
    exact ⟨p, d, rfl, hrun ▸ hnumeral⟩

/-- **The numbers of a tree are exact, and their labels are faithful.** A number is the one that the
digits at its place write, with as many places behind the point, and its label writes the same. The
label alone is read as this number exactly if its first digit stands at most six places behind the
point, and otherwise a character of it is refused. -/
theorem number_leaf_exact {text : String} {tree : Node} (h : scan text = .ok tree) :
    ∀ leaf ∈ tree.leaves, leaf.kind = .number → ∃ (p : Nat) (d : Decimal),
      leaf = .mk .number (.decimal d) p [] ∧
      (∀ v e, Denotes ((text.toList.drop p).takeWhile isNumeralChar) v e ↔
        v = d.value ∧ e = d.exponent) ∧
      (∀ v e, Denotes leaf.payload.label.toList v e ↔ v = d.value ∧ e = d.exponent) ∧
      (scan leaf.payload.label = .ok (.term 0 [.mk .number leaf.payload 0 []]) ↔
        -6 ≤ d.exponent + d.digits.length - 1) ∧
      (¬ -6 ≤ d.exponent + d.digits.length - 1 → ∃ fault,
        scan leaf.payload.label = .error (.fault fault) ∧
          fault.cause.kind = .unexpectedCharacter) := by
  intro leaf hleaf hkind
  obtain ⟨p, d, rfl, hnumeral⟩ := exists_numeral_of_scan h hleaf hkind
  refine ⟨p, d, rfl, fun _ _ => hnumeral.denotes.iff, fun _ _ => d.denotes_text.iff, ?_,
    fun hsmall => ?_⟩
  · rw [← Decimal.isPositional_iff]
    refine ⟨fun hscan => ?_, Decimal.scan_text_eq_ok⟩
    by_contra hnot
    obtain ⟨q, herror⟩ := Decimal.exists_scan_text_eq_error hnot
    cases hscan.symm.trans herror
  · rw [← Decimal.isPositional_iff] at hsmall
    obtain ⟨q, herror⟩ := Decimal.exists_scan_text_eq_error hsmall
    exact ⟨_, herror, rfl⟩

/-- Seven places behind the point are one too many for the label of a single digit. -/
theorem number_leaf_exact_small :
    scan "0.0000001+1.50" = .ok (.term 0 [.mk .number (.decimal ⟨1, 7⟩) 0 [],
        .mk .operator (.text "+") 9 [], .mk .number (.decimal ⟨150, 2⟩) 10 []]) ∧
      Denotes "0.0000001".toList (1 / 10 ^ 7) (-7) ∧ Denotes "1E-7".toList (1 / 10 ^ 7) (-7) ∧
      (∃ fault, scan "1E-7" = .error (.fault fault) ∧
        fault.cause.kind = .unexpectedCharacter) ∧
      scan "1.50" = .ok (.term 0 [.mk .number (.decimal ⟨150, 2⟩) 0 []]) := by
  have hsmall : Reads ⟨0, "0.0000001".toList ++ "+1.50".toList⟩ (.number ⟨1, 7⟩)
      ⟨0 + 9, "+1.50".toList⟩ :=
    .number (by decide) ⟨'0', rfl, rfl⟩ (endsNumeral_operator (by decide) _) rfl
  have hlarge : Reads ⟨10, "1.50".toList ++ []⟩ (.number ⟨150, 2⟩) ⟨10 + 4, []⟩ :=
    .number (by decide) ⟨'1', rfl, rfl⟩ endsNumeral_nil rfl
  have hlexes : Lexes (.start "0.0000001+1.50")
      [⟨.number ⟨1, 7⟩, 0⟩, ⟨.operator '+', 9⟩, ⟨.number ⟨150, 2⟩, 10⟩] ⟨14, []⟩ :=
    .cons hsmall (.cons (.operator (by decide)) (.cons hlarge (.nil _)))
  have hscan : scan "0.0000001+1.50" = .ok (.term 0 [.mk .number (.decimal ⟨1, 7⟩) 0 [],
      .mk .operator (.text "+") 9 [], .mk .number (.decimal ⟨150, 2⟩) 10 []]) :=
    scan_eq_ok_iff.2 ⟨_, _, _, hlexes, rfl, .leaf rfl (.leaf rfl (.leaf rfl .nil)), rfl⟩
  have hleaves : (Node.term 0 [.mk .number (.decimal ⟨1, 7⟩) 0 [],
      .mk .operator (.text "+") 9 [], .mk .number (.decimal ⟨150, 2⟩) 10 []]).leaves =
        [.mk .number (.decimal ⟨1, 7⟩) 0 [], .mk .operator (.text "+") 9 [],
          .mk .number (.decimal ⟨150, 2⟩) 10 []] :=
    leavesOf_eq_self (by decide)
  obtain ⟨p, d, hleaf, hnumeral, hlabel, -, hrefused⟩ :=
    number_leaf_exact hscan (.mk .number (.decimal ⟨1, 7⟩) 0 []) (by rw [hleaves]; simp) rfl
  obtain ⟨q, e, hleaf', -, -, hread, -⟩ :=
    number_leaf_exact hscan (.mk .number (.decimal ⟨150, 2⟩) 10 []) (by rw [hleaves]; simp) rfl
  obtain ⟨-, hpayload, hposition, -⟩ := Node.mk.inj hleaf
  obtain ⟨-, hpayload', -, -⟩ := Node.mk.inj hleaf'
  cases hpayload
  cases hpayload'
  obtain rfl : p = 0 := by omega
  have hvalue : (1 / 10 ^ 7 : ℚ) = (Decimal.mk 1 7).value ∧ -7 = (Decimal.mk 1 7).exponent := by
    simp [Decimal.value, Decimal.exponent]
  exact ⟨hscan, (hnumeral _ _).2 hvalue, (hlabel _ _).2 hvalue, hrefused (by decide),
    hread.2 (by decide)⟩

end Term

end ArithTree
