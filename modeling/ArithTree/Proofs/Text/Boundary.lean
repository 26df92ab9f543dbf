import ArithTree.Text.Numeral
import ArithTree.Text.Symbol

/-!
# Runs of characters and where they end

Numerals and identifiers are runs of characters of one class, and a reader takes the longest run it
can. What it takes is therefore known as soon as the run is followed by a character of another
class.

* `span_append` : the longest run of a class.
* `IsNumeral` : digits with at most one point among them, and at least one digit.
* `spanNumeral_numeral` : in front of a text that cannot continue it, a numeral is read as a whole.
* `isNumeral_span` : what is read from a digit on is a numeral.
* `not_isDigit_of_isLetter`, `not_isLetter_of_mem` : letters are apart from all other lexemes.
-/

namespace ArithTree.Text

/-! ### Runs -/

/-- A run of one class, with no element of that class behind it, ends where it ends. -/
theorem span_append {α : Type} {p : α → Bool} {run behind : List α} (hrun : ∀ x ∈ run, p x)
    (hbehind : ∀ x ∈ behind.head?, ¬ p x) :
    (run ++ behind).takeWhile p = run ∧ (run ++ behind).dropWhile p = behind := by
  have hnone : behind.takeWhile p = [] ∧ behind.dropWhile p = behind := by
    cases behind with
    | nil => exact ⟨rfl, rfl⟩
    | cons x behind =>
      have hx : ¬ p x := hbehind x rfl
      exact ⟨List.takeWhile_cons_of_neg hx, List.dropWhile_cons_of_neg hx⟩
  rw [List.takeWhile_append_of_pos hrun, List.dropWhile_append_of_pos hrun, hnone.1, hnone.2,
    List.append_nil]
  exact ⟨rfl, rfl⟩

/-! ### Letters -/

theorem le_toNat_of_isLetter {c : Char} (h : isLetter c) : 'A'.toNat ≤ c.toNat := by
  rcases Nat.lt_or_ge c.toNat 0x41 with hlt | hge
  · rw [isLetter, letterRanges, inRanges, if_pos hlt] at h
    exact (Bool.false_ne_true h).elim
  · exact hge

theorem isDigit_iff {c : Char} : c.isDigit ↔ '0'.toNat ≤ c.toNat ∧ c.toNat ≤ '9'.toNat := by
  simp only [Char.isDigit, Bool.and_eq_true, decide_eq_true_eq]
  rfl

theorem not_isDigit_of_isLetter {c : Char} (h : isLetter c) : ¬ c.isDigit := by
  intro hd
  have hle := le_toNat_of_isLetter h
  have hge := (isDigit_iff.1 hd).2
  have : '9'.toNat < 'A'.toNat := by decide
  omega

theorem not_isLetter_of_mem {c : Char} (h : c ∈ " ().+-*/=".toList) : isLetter c = false := by
  have hall : " ().+-*/=".toList.all (fun c => !isLetter c) := by decide
  simpa using List.all_eq_true.1 hall c h

/-! ### Numerals -/

/-- A character that occurs in numerals. -/
def InNumeral (c : Char) : Prop := c.isDigit ∨ c = '.'

/-- Whether a character occurs in numerals. -/
def isNumeralChar (c : Char) : Bool := c.isDigit || c = '.'

theorem isNumeralChar_iff {c : Char} : isNumeralChar c ↔ InNumeral c := by
  simp [isNumeralChar, InNumeral]

/-- Digits with at most one point among them, and at least one digit. -/
structure IsNumeral (s : List Char) : Prop where
  /-- There is nothing else in it. -/
  chars : ∀ c ∈ s, InNumeral c
  /-- There is at most one point. -/
  points : s.count '.' ≤ 1
  /-- There is a digit. -/
  digit : ∃ c ∈ s, c.isDigit

theorem isNumeral_iff {s : List Char} : IsNumeral s ↔
    (s.all (fun c => c.isDigit || c == '.') && decide (s.count '.' ≤ 1) &&
      s.any Char.isDigit) = true := by
  have hchars : (∀ c ∈ s, InNumeral c) ↔ s.all (fun c => c.isDigit || c == '.') = true := by
    simp [InNumeral]
  have hdigit : (∃ c ∈ s, c.isDigit) ↔ s.any Char.isDigit = true := List.any_eq_true.symm
  rw [Bool.and_eq_true, Bool.and_eq_true, decide_eq_true_eq, ← hchars, ← hdigit]
  exact ⟨fun h => ⟨⟨h.chars, h.points⟩, h.digit⟩, fun ⟨⟨hc, hp⟩, hd⟩ => ⟨hc, hp, hd⟩⟩

instance (s : List Char) : Decidable (IsNumeral s) := decidable_of_iff _ isNumeral_iff.symm

/-- A text that cannot continue a numeral. -/
def EndsNumeral (rest : List Char) : Prop := ∀ c ∈ rest.head?, ¬ InNumeral c

theorem endsNumeral_nil : EndsNumeral [] := by simp [EndsNumeral]

theorem endsNumeral_cons {c : Char} {rest : List Char} :
    EndsNumeral (c :: rest) ↔ ¬ InNumeral c := by
  simp [EndsNumeral]

/-- A text that cannot continue a numeral, or what follows it if it is empty. -/
theorem EndsNumeral.append {text rest : List Char} (h : EndsNumeral text)
    (hrest : EndsNumeral rest) : EndsNumeral (text ++ rest) := by
  cases text with
  | nil => exact hrest
  | cons c text => exact endsNumeral_cons.2 (endsNumeral_cons.1 h)

theorem IsNumeral.ne_nil {s : List Char} (h : IsNumeral s) : s ≠ [] := by
  obtain ⟨d, hd, -⟩ := h.digit
  exact List.ne_nil_of_mem hd

theorem IsNumeral.not_endsNumeral {s : List Char} (h : IsNumeral s) (rest : List Char) :
    ¬ EndsNumeral (s ++ rest) := by
  obtain ⟨c, tail, rfl⟩ := List.exists_cons_of_ne_nil h.ne_nil
  exact fun hends => endsNumeral_cons.1 hends (h.chars c List.mem_cons_self)

/-- Digits and points up to a text that cannot continue a numeral. -/
theorem takeWhile_numeral {run rest : List Char} (hrun : ∀ c ∈ run, InNumeral c)
    (hrest : EndsNumeral rest) : (run ++ rest).takeWhile isNumeralChar = run :=
  (span_append (fun c hc => isNumeralChar_iff.2 (hrun c hc))
    fun c hc => mt isNumeralChar_iff.1 (hrest c hc)).1

theorem endsNumeral_space {rest : List Char} : EndsNumeral (' ' :: rest) :=
  endsNumeral_cons.2 (by simp [InNumeral])

theorem endsNumeral_closing {rest : List Char} : EndsNumeral (')' :: rest) :=
  endsNumeral_cons.2 (by simp [InNumeral])

theorem endsNumeral_operator {c : Char} (h : c ∈ operatorSymbols) (rest : List Char) :
    EndsNumeral (c :: rest) := by
  refine endsNumeral_cons.2 ?_
  revert c
  simp [operatorSymbols, InNumeral]

theorem isDigit_ne_point {c : Char} (h : c.isDigit) : c ≠ '.' := by
  rintro rfl
  exact absurd h (by decide)

theorem count_point_digits {digits : List Char} (h : ∀ c ∈ digits, c.isDigit) :
    digits.count '.' = 0 :=
  List.count_eq_zero.2 fun hmem => isDigit_ne_point (h _ hmem) rfl

theorem spanNumeral_ends {rest : List Char} (h : EndsNumeral rest) (pointBefore : Bool) :
    spanNumeral pointBefore rest = ([], rest) := by
  cases rest with
  | nil => rfl
  | cons c rest =>
    have hc := endsNumeral_cons.1 h
    have hd : ¬ c.isDigit := fun hin => hc (.inl hin)
    have hp : ¬ (c = '.' ∧ pointBefore = false) := fun hin => hc (.inr hin.1)
    rw [spanNumeral, if_neg hd, if_neg hp]

theorem spanNumeral_second_point (rest : List Char) :
    spanNumeral true ('.' :: rest) = ([], '.' :: rest) := by
  rw [spanNumeral, if_neg (by decide), if_neg (by decide)]

/-- A run that may be read is read as a whole, if the text behind it cannot continue it. -/
theorem spanNumeral_append_eq {run rest : List Char} {pointBefore : Bool}
    (hrun : ∀ c ∈ run, InNumeral c) (hpoints : run.count '.' ≤ if pointBefore then 0 else 1)
    (hrest : spanNumeral (pointBefore || decide ('.' ∈ run)) rest = ([], rest)) :
    spanNumeral pointBefore (run ++ rest) = (run, rest) := by
  induction run generalizing pointBefore with
  | nil => simpa using hrest
  | cons c run ih =>
    have hall : ∀ d ∈ run, InNumeral d := fun d hd => hrun d (List.mem_cons_of_mem _ hd)
    rcases hrun c List.mem_cons_self with hd | rfl
    · rw [List.count_cons_of_ne (isDigit_ne_point hd)] at hpoints
      have hmem : '.' ∈ c :: run ↔ '.' ∈ run := by simp [(isDigit_ne_point hd).symm]
      rw [decide_eq_decide.2 hmem] at hrest
      rw [List.cons_append, spanNumeral, if_pos hd, ih hall hpoints hrest]
    · rw [List.count_cons_self] at hpoints
      -- From a point on, the reader is in the state in which the rest may hold no other.
      cases pointBefore with
      | true => simp at hpoints
      | false =>
        have hnone : run.count '.' ≤ if true then 0 else 1 := by simpa using hpoints
        have hbehind : spanNumeral (true || decide ('.' ∈ run)) rest = ([], rest) := by
          simpa using hrest
        rw [List.cons_append, spanNumeral, if_neg (by decide), if_pos ⟨rfl, rfl⟩,
          ih hall hnone hbehind]

theorem spanNumeral_numeral {numeral rest : List Char} (h : IsNumeral numeral)
    (hrest : EndsNumeral rest) : spanNumeral false (numeral ++ rest) = (numeral, rest) :=
  spanNumeral_append_eq h.chars (by simpa using h.points) (spanNumeral_ends hrest _)

/-- A numeral that has its point is read up to a second one. -/
theorem spanNumeral_numeral_point {numeral : List Char} (h : IsNumeral numeral)
    (hpoint : '.' ∈ numeral) (rest : List Char) :
    spanNumeral false (numeral ++ '.' :: rest) = (numeral, '.' :: rest) := by
  refine spanNumeral_append_eq h.chars (by simpa using h.points) ?_
  rw [decide_eq_true hpoint, Bool.or_true]
  exact spanNumeral_second_point rest

theorem inNumeral_of_mem_span {pointBefore : Bool} {text : List Char} {c : Char}
    (h : c ∈ (spanNumeral pointBefore text).1) : InNumeral c := by
  fun_induction spanNumeral pointBefore text with
  | case1 => simp at h
  | case2 _ d rest hd run behind hspan ih =>
    rcases List.mem_cons.1 h with rfl | h
    · exact .inl hd
    · exact ih (by rw [hspan]; exact h)
  | case3 _ d rest _ hp run behind hspan ih =>
    rcases List.mem_cons.1 h with rfl | h
    · exact .inr hp.1
    · exact ih (by rw [hspan]; exact h)
  | case4 => simp at h

theorem count_point_span (pointBefore : Bool) (text : List Char) :
    (spanNumeral pointBefore text).1.count '.' ≤ if pointBefore then 0 else 1 := by
  fun_induction spanNumeral pointBefore text with
  | case1 => simp
  | case2 _ d rest hd run behind hspan ih =>
    rw [hspan] at ih
    rwa [List.count_cons_of_ne (isDigit_ne_point hd)]
  | case3 _ d rest _ hp run behind hspan ih =>
    obtain ⟨rfl, rfl⟩ := hp
    rw [hspan] at ih
    rw [List.count_cons_self]
    simpa using ih
  | case4 => simp

/-- What is read from a digit on begins with it and is a numeral. -/
theorem isNumeral_span {c : Char} (h : c.isDigit) (rest : List Char) :
    IsNumeral (spanNumeral false (c :: rest)).1 ∧
      (spanNumeral false (c :: rest)).1.head? = some c := by
  have hhead : (spanNumeral false (c :: rest)).1 = c :: (spanNumeral false rest).1 := by
    rw [spanNumeral, if_pos h]
  refine ⟨⟨fun _ => inNumeral_of_mem_span, ?_, c, ?_, h⟩, ?_⟩
  · simpa using count_point_span false (c :: rest)
  · rw [hhead]
    exact List.mem_cons_self
  · rw [hhead, List.head?_cons]

/-- The text behind a numeral cannot continue it, unless it begins with a second point. -/
theorem not_isDigit_head_span {pointBefore : Bool} {text : List Char} {c : Char}
    (h : (spanNumeral pointBefore text).2.head? = some c) : ¬ c.isDigit := by
  fun_induction spanNumeral pointBefore text with
  | case1 => simp at h
  | case2 _ d rest hd run behind hspan ih => exact ih (by rw [hspan]; exact h)
  | case3 _ d rest _ hp run behind hspan ih => exact ih (by rw [hspan]; exact h)
  | case4 _ d rest hd _ =>
    rw [List.head?_cons, Option.some.injEq] at h
    exact h ▸ hd

theorem endsNumeral_span {pointBefore : Bool} {text : List Char}
    (h : (spanNumeral pointBefore text).2.head? ≠ some '.') :
    EndsNumeral (spanNumeral pointBefore text).2 := by
  intro c hc hin
  rcases hin with hdigit | rfl
  · exact not_isDigit_head_span hc hdigit
  · exact h hc

/-- What is read from a digit or a point on is a numeral, unless it is just the point. -/
theorem isNumeral_span_of_ne {c : Char} (h : InNumeral c) {rest : List Char}
    (hlone : (spanNumeral false (c :: rest)).1 ≠ ['.']) :
    IsNumeral (spanNumeral false (c :: rest)).1 := by
  by_cases hdigit : c.isDigit
  · exact (isNumeral_span hdigit rest).1
  · obtain rfl : c = '.' := h.resolve_left hdigit
    have hpoints : (spanNumeral true rest).1.count '.' = 0 := by
      simpa using count_point_span true rest
    have hspan : (spanNumeral false ('.' :: rest)).1 = '.' :: (spanNumeral true rest).1 := by
      rw [spanNumeral, if_neg hdigit, if_pos ⟨rfl, rfl⟩]
    rw [hspan] at hlone ⊢
    -- Behind the point there is no other one, so what stands there is a digit.
    obtain ⟨d, run, hrun⟩ : ∃ d run, (spanNumeral true rest).1 = d :: run :=
      List.exists_cons_of_ne_nil fun hnil => hlone (by rw [hnil])
    have hd : d ∈ (spanNumeral true rest).1 := hrun ▸ List.mem_cons_self
    refine ⟨?_, ?_, d, List.mem_cons_of_mem _ hd, ?_⟩
    · exact List.forall_mem_cons.2 ⟨.inr rfl, fun _ => inNumeral_of_mem_span⟩
    · exact Nat.le_of_eq (by rw [List.count_cons_self, hpoints])
    · refine (inNumeral_of_mem_span hd).resolve_right ?_
      rintro rfl
      exact List.count_eq_zero.1 hpoints hd

/-- A point stands behind a numeral only as a second one. -/
theorem point_mem_span {pointBefore : Bool} {text : List Char}
    (h : (spanNumeral pointBefore text).2.head? = some '.') :
    pointBefore = true ∨ '.' ∈ (spanNumeral pointBefore text).1 := by
  fun_induction spanNumeral pointBefore text with
  | case1 => simp at h
  | case2 _ d rest hd run behind hspan ih =>
    rw [hspan] at ih
    exact (ih h).imp_right (List.mem_cons_of_mem d)
  | case3 _ d rest _ hp run behind hspan ih =>
    right
    rw [hp.1]
    exact List.mem_cons_self
  | case4 pointBefore d rest _ hp =>
    rw [List.head?_cons, Option.some.injEq] at h
    cases pointBefore with
    | true => exact .inl rfl
    | false => exact absurd ⟨h, rfl⟩ hp

end ArithTree.Text
