import ArithTree.Json.Write
import ArithTree.Json.Lexeme
import ArithTree.Proofs.Text.Boundary
import Mathlib.Tactic.SplitIfs

/-!
# Numbers that are written are read

A number is a sign, digits before the point, digits behind it and an exponent; each of these parts
is read to its end if what comes behind cannot continue it. Whole numbers are read back. The text of
a double has a fraction or an exponent, so it is read as a double again.

* `readNumber_append` : the number that its parts make.
* `readNumber_writtenInteger` : a whole number is read back.
* `IsDecimal.exists_readNumber` : a decimal with a fraction or an exponent is read as a double.
-/

namespace ArithTree.Double

/-- A multiple of a power of ten that reads back to a positive double is not zero. -/
theorem coefficient_ne_zero_of_nearest? {significand : Nat} {exponent grid : Int}
    {point : GridPoint} (hs : significand ≠ 0)
    (h : (intervalOf significand exponent).nearest? grid = some point) :
    point.coefficient ≠ 0 := by
  have hlow : 0 < (intervalOf significand exponent).low := by
    simp only [intervalOf]
    split_ifs <;> omega
  unfold Interval.nearest? at h
  extract_lets up down inside below gapBelow gapAbove belowIsNearer at h
  have hup : 0 < up := Nat.mul_pos (Nat.pow_pos (by decide)) (Nat.pow_pos (by decide))
  have hpos := Nat.mul_pos hlow hup
  have hinside : inside 0 = false := by
    simp only [inside, Nat.zero_mul]
    split <;> exact Bool.and_eq_false_iff.2 (.inl (decide_eq_false (by omega)))
  have hne : inside below = true → below ≠ 0 := by
    intro hb h0
    rw [h0, hinside] at hb
    cases hb
  split at h
  case h_1 hb _ =>
    cases h
    simp only
    split_ifs
    · exact hne hb
    · exact Nat.succ_ne_zero _
  case h_2 hb _ => cases h; exact hne hb
  case h_3 => cases h; simp
  case h_4 => cases h

theorem coefficient_shortest_ne_zero {significand : Nat} {exponent : Int} (hs : significand ≠ 0) :
    (shortest significand exponent).coefficient ≠ 0 := by
  rw [shortest]
  cases h : grids.findSome? (intervalOf significand exponent).nearest? with
  | none => exact hs
  | some point =>
    obtain ⟨grid, -, hgrid⟩ := List.exists_of_findSome?_eq_some h
    exact coefficient_ne_zero_of_nearest? hs hgrid

end ArithTree.Double

namespace ArithTree.Json

variable {α : Type} {rest : List Char}

/-! ### The parts of a number -/

/-- Whether a number that stands before a text ends there. -/
def EndsNumber (rest : List Char) : Prop :=
  ∀ c ∈ rest.head?, c.isDigit = false ∧ c ≠ '.' ∧ c ≠ 'e' ∧ c ≠ 'E'

/-- Digits in front of a text, with no more digits behind them. -/
theorem spanDigits_append {digits : List Char} (hdigits : ∀ c ∈ digits, c.isDigit)
    (hrest : ∀ c ∈ rest.head?, c.isDigit = false) :
    spanDigits (digits ++ rest) = (digits, rest) := by
  have hbehind : ∀ c ∈ rest.head?, ¬ c.isDigit := by
    intro c hc
    rw [hrest c hc]
    exact Bool.false_ne_true
  obtain ⟨htake, hdrop⟩ := Text.span_append hdigits hbehind
  rw [spanDigits, htake, hdrop]

/-- Digits that may stand before the point: a zero stands alone. -/
structure IsWhole (digits : List Char) : Prop where
  ne_nil : digits ≠ []
  isDigit : ∀ c ∈ digits, c.isDigit
  leading : digits.head? = some '0' → digits = ['0']

theorem isWhole_zero : IsWhole ['0'] where
  ne_nil := List.cons_ne_nil _ _
  isDigit := List.forall_mem_singleton.2 rfl
  leading _ := rfl

theorem readWhole_append {digits : List Char} (h : IsWhole digits)
    (hrest : ∀ c ∈ rest.head?, c.isDigit = false) :
    readWhole (digits ++ rest) = some (digits, rest) := by
  obtain ⟨hne, hdigits, hleading⟩ := h
  cases digits with
  | nil => exact absurd rfl hne
  | cons d digits =>
    by_cases hd : d = '0'
    · subst hd
      rw [hleading rfl]
      rfl
    · rw [readWhole, spanDigits_append hdigits hrest]
      simpa using hd

/-- The digits behind the point with the point, if there are any. -/
def fractionText (fraction : List Char) : List Char :=
  if fraction = [] then [] else '.' :: fraction

theorem readFraction_append {fraction : List Char} (hdigits : ∀ c ∈ fraction, c.isDigit)
    (hrest : ∀ c ∈ rest.head?, c.isDigit = false ∧ c ≠ '.') :
    readFraction (fractionText fraction ++ rest) = (fraction, rest) := by
  rw [fractionText]
  split_ifs with hfraction
  · rw [hfraction, List.nil_append]
    unfold readFraction
    split
    · exact absurd rfl (hrest '.' rfl).2
    · rfl
  · rw [List.cons_append, readFraction, spanDigits_append hdigits fun c hc => (hrest c hc).1]
    cases fraction with
    | nil => exact absurd rfl hfraction
    | cons d digits => rfl

/-- The sign of an exponent and its digits behind the letter, if there are any. -/
def exponentText : Option (Bool × List Char) → List Char
  | none => []
  | some (negative, digits) => 'e' :: (if negative then '-' else '+') :: digits

theorem readExponent_append {exponent : Option (Bool × List Char)}
    (hdigits : ∀ e ∈ exponent, e.2 ≠ [] ∧ ∀ c ∈ e.2, c.isDigit) (hrest : EndsNumber rest) :
    readExponent (exponentText exponent ++ rest) =
      (exponent.map fun e => signed e.1 (Text.natOfDigits e.2), rest) := by
  match exponent, hdigits with
  | none, _ =>
    rw [exponentText, List.nil_append]
    unfold readExponent
    split
    · rfl
    · next c rest =>
      rw [if_neg (by simp [hrest c rfl])]
      rfl
  | some (negative, digits), hdigits =>
    obtain ⟨hne, hdigits⟩ := hdigits _ rfl
    have hsign : readSign ((if negative then '-' else '+') :: (digits ++ rest)) =
        (negative, digits ++ rest) := by
      cases negative <;> rfl
    rw [exponentText, List.cons_append, List.cons_append, readExponent, if_pos (.inl rfl), hsign,
      spanDigits_append hdigits fun c hc => (hrest c hc).1]
    cases digits with
    | nil => exact absurd rfl hne
    | cons d digits => rfl

theorem readMinus_append {digits : List Char} (h : IsWhole digits) (negative : Bool) :
    readMinus ((if negative then ['-'] else []) ++ (digits ++ rest)) =
      (negative, digits ++ rest) := by
  cases negative with
  | true => rfl
  | false =>
    obtain ⟨hne, hdigits, -⟩ := h
    cases digits with
    | nil => exact absurd rfl hne
    | cons d digits =>
      have hd : d ≠ '-' := by
        rintro rfl
        exact absurd (hdigits '-' (by simp)) (by decide)
      rw [if_neg (by decide), List.nil_append, List.cons_append, readMinus]
      simp [hd]

/-- The digits of a number have no leading zero, but for zero itself. -/
theorem head?_toDigits {n : Nat} (hn : n ≠ 0) : (Nat.toDigits 10 n).head? ≠ some '0' := by
  induction n using Nat.strongRecOn with
  | ind n ih =>
    by_cases hlt : n < 10
    · rw [Nat.toDigits_of_lt_base hlt, List.head?_singleton]
      intro h
      exact hn (Nat.digitChar_eq_zero.1 (Option.some.inj h))
    · rw [Nat.toDigits_of_base_le (by decide) (by omega), List.head?_append,
        Option.or_of_isSome (List.isSome_head?.2 Nat.toDigits_ne_nil)]
      exact ih _ (by omega) (by omega)

theorem isDigit_of_mem_toDigits {n : Nat} : ∀ c ∈ Nat.toDigits 10 n, c.isDigit :=
  fun _ => Nat.isDigit_of_mem_toDigits (by decide) (by decide)

theorem isWhole_toDigits (n : Nat) : IsWhole (Nat.toDigits 10 n) where
  ne_nil := Nat.toDigits_ne_nil
  isDigit := isDigit_of_mem_toDigits
  leading h := by
    have : n = 0 := Decidable.by_contra fun hn => head?_toDigits hn h
    rw [this]
    rfl

theorem natOfDigits_toDigits (n : Nat) : Text.natOfDigits (Nat.toDigits 10 n) = n := by
  rw [Text.natOfDigits, ← Nat.ofDigitChars_eq_foldl,
    Nat.ofDigitChars_toDigits (by decide) (by decide)]

/-- The number that its sign, its digits on both sides of the point and its exponent make. -/
theorem readNumber_append (negative : Bool) {whole : List Char} (fraction : List Char)
    (exponent : Option (Bool × List Char)) (hwhole : IsWhole whole)
    (hfraction : ∀ c ∈ fraction, c.isDigit)
    (hexponent : ∀ e ∈ exponent, e.2 ≠ [] ∧ ∀ c ∈ e.2, c.isDigit) (hrest : EndsNumber rest) :
    readNumber (α := α) ((if negative then ['-'] else []) ++
        (whole ++ (fractionText fraction ++ (exponentText exponent ++ rest)))) =
      some (if fraction = [] ∧ exponent = none then
          .integer (signed negative (Text.natOfDigits whole))
        else .double (.ofDecimal negative (Text.natOfDigits (whole ++ fraction))
          ((exponent.map fun e => signed e.1 (Text.natOfDigits e.2)).getD 0 - fraction.length)),
        rest) := by
  -- the text behind the digits of either kind begins with no digit
  have hbehind : ∀ c ∈ (exponentText exponent ++ rest).head?, c.isDigit = false ∧ c ≠ '.' := by
    match exponent with
    | none => exact fun c hc => ⟨(hrest c hc).1, (hrest c hc).2.1⟩
    | some e =>
      rintro c ⟨⟩
      decide
  have hbehind' : ∀ c ∈ (fractionText fraction ++ (exponentText exponent ++ rest)).head?,
      c.isDigit = false := by
    rw [fractionText]
    split_ifs
    · exact fun c hc => (hbehind c hc).1
    · rintro c ⟨⟩
      decide
  rw [readNumber, readMinus_append hwhole]
  simp only
  rw [readWhole_append hwhole hbehind', Option.map_some]
  simp only [readFraction_append hfraction hbehind, readExponent_append hexponent hrest]
  cases fraction <;> cases exponent <;> simp

/-- A whole number is read back. -/
theorem readNumber_writtenInteger (n : Int) (hrest : EndsNumber rest) :
    readNumber (α := α) (writtenInteger n ++ rest) = some (.integer n, rest) := by
  have hminus : (if n < 0 then ['-'] else []) = if decide (n < 0) then ['-'] else [] := by simp
  have hsigned : signed (decide (n < 0)) n.natAbs = n := by
    rw [signed]
    split <;> rename_i hn <;> rw [decide_eq_true_eq] at hn <;> omega
  rw [writtenInteger, hminus, List.append_assoc]
  refine (readNumber_append _ [] none (isWhole_toDigits _) (by simp) (by simp) hrest).trans ?_
  simp [natOfDigits_toDigits, hsigned]


/-! ### Doubles -/

/-- Whether a text writes a decimal that has a fraction or an exponent. -/
def IsDecimal (text : List Char) : Prop :=
  ∃ whole fraction exponent, text = whole ++ (fractionText fraction ++ exponentText exponent) ∧
    IsWhole whole ∧ (∀ c ∈ fraction, c.isDigit) ∧
    (∀ e ∈ exponent, e.2 ≠ [] ∧ ∀ c ∈ e.2, c.isDigit) ∧ ¬ (fraction = [] ∧ exponent = none)

theorem isDigit_of_mem_zeros {n : Nat} : ∀ c ∈ List.replicate n '0', c.isDigit := by
  intro c hc
  rw [List.eq_of_mem_replicate hc]
  rfl

/-- Some of the first digits of a number that is not zero, with zeros behind them. -/
theorem isWhole_take {n k : Nat} (hn : n ≠ 0) (hk : k ≠ 0) (zeros : Nat) :
    IsWhole ((Nat.toDigits 10 n ++ List.replicate zeros '0').take k) where
  ne_nil := by simp [hk]
  isDigit c hc :=
    (List.mem_append.1 (List.mem_of_mem_take hc)).elim (isDigit_of_mem_toDigits c)
      (isDigit_of_mem_zeros c)
  leading h := by
    rw [List.head?_take, if_neg hk, List.head?_append,
      Option.or_of_isSome (List.isSome_head?.2 Nat.toDigits_ne_nil)] at h
    exact absurd h (head?_toDigits hn)

theorem isDecimal_layout {point : Double.GridPoint} (h : point.coefficient ≠ 0) :
    IsDecimal (Double.layout point) := by
  unfold Double.layout
  extract_lets digits lead whole padded fraction tail power
  have hdigits : ∀ c ∈ digits, c.isDigit := isDigit_of_mem_toDigits
  have hne : digits ≠ [] := Nat.toDigits_ne_nil
  by_cases hsmall : -4 ≤ lead ∧ lead < 0
  · rw [if_pos hsmall]
    refine ⟨['0'], List.replicate (-lead - 1).toNat '0' ++ digits, none, ?_, ?_, ?_, by simp, ?_⟩
    · simp [fractionText, exponentText, hne]
    · exact isWhole_zero
    · exact fun c hc => (List.mem_append.1 hc).elim (isDigit_of_mem_zeros c) (hdigits c)
    · simp [hne]
  rw [if_neg hsmall]
  by_cases hmiddle : 0 ≤ lead ∧ lead < 16
  · rw [if_pos hmiddle]
    have hpadded : ∀ c ∈ padded, c.isDigit := fun c hc =>
      (List.mem_append.1 hc).elim (hdigits c) (isDigit_of_mem_zeros c)
    have hfraction : (if fraction = [] then ['0'] else fraction) ≠ [] := by split_ifs <;> simp [*]
    refine ⟨padded.take whole, if fraction = [] then ['0'] else fraction, none, ?_,
      isWhole_take h (Nat.succ_ne_zero _) _, ?_, by simp, fun hnil => hfraction hnil.1⟩
    · rw [fractionText, if_neg hfraction]
      simp [exponentText]
    · split_ifs
      · exact List.forall_mem_singleton.2 rfl
      · exact fun c hc => hpadded c (List.mem_of_mem_drop hc)
  · rw [if_neg hmiddle]
    refine ⟨digits.take 1, tail,
      some (decide (lead < 0), List.replicate (2 - power.length) '0' ++ power), ?_, ?_, ?_, ?_,
      by simp⟩
    · simp [fractionText, exponentText]
    · simpa using isWhole_take (k := 1) h Nat.one_ne_zero 0
    · exact fun c hc => hdigits c (List.mem_of_mem_drop hc)
    · rintro e ⟨⟩
      refine ⟨by simp [power, Nat.toDigits_ne_nil], fun c hc => ?_⟩
      exact (List.mem_append.1 hc).elim (isDigit_of_mem_zeros c) (isDigit_of_mem_toDigits c)

/-- A decimal with a sign is read as one double, wherever it ends. -/
theorem IsDecimal.exists_readNumber {text : List Char} (h : IsDecimal text) (negative : Bool) :
    ∃ d, ∀ (α : Type) rest, EndsNumber rest →
      readNumber (α := α) ((if negative then ['-'] else []) ++ (text ++ rest)) =
        some (.double d, rest) := by
  obtain ⟨whole, fraction, exponent, rfl, hwhole, hfraction, hexponent, hdouble⟩ := h
  refine ⟨.ofDecimal negative (Text.natOfDigits (whole ++ fraction))
    ((exponent.map fun e => signed e.1 (Text.natOfDigits e.2)).getD 0 - fraction.length),
    fun α rest hrest => ?_⟩
  have hread :=
    readNumber_append (α := α) negative fraction exponent hwhole hfraction hexponent hrest
  rw [if_neg hdouble] at hread
  simpa only [List.append_assoc] using hread

theorem IsWhole.exists_digit {digits : List Char} (h : IsWhole digits) :
    ∃ d tail, digits = d :: tail ∧ d.isDigit := by
  obtain ⟨d, tail, rfl⟩ := List.exists_cons_of_ne_nil h.ne_nil
  exact ⟨d, tail, rfl, h.isDigit d (by simp)⟩

theorem IsDecimal.exists_digit {text : List Char} (h : IsDecimal text) :
    ∃ d tail, text = d :: tail ∧ d.isDigit := by
  obtain ⟨whole, fraction, exponent, rfl, hwhole, -⟩ := h
  obtain ⟨d, tail, rfl, hd⟩ := hwhole.exists_digit
  exact ⟨d, _, rfl, hd⟩

theorem exists_isDecimal_finiteText (negative : Bool) (significand : Nat) (exponent : Int) :
    ∃ text, IsDecimal text ∧ Double.finiteText negative significand exponent =
      (if negative then ['-'] else []) ++ text := by
  refine ⟨_, ?_, rfl⟩
  split_ifs with hs
  · exact ⟨['0'], ['0'], none, rfl, isWhole_zero, List.forall_mem_singleton.2 rfl, by simp,
      by simp⟩
  · exact isDecimal_layout (Double.coefficient_shortest_ne_zero hs)

end ArithTree.Json
