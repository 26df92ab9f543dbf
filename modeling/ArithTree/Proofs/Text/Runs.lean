import Mathlib.Data.List.DropRight
import ArithTree.Proofs.Text.Boundary

/-!
# Rows of digits and points

A maximal row of digits and points is found from any of its characters: it reaches back and on as
far as such characters stand.

* `IsRun` : the maximal rows of a text.
* `exists_isRun` : every digit and point is in one.
-/

namespace ArithTree.Text

/-- The digits and points from a place on. -/
def runFrom (text : List Char) (p : Nat) : List Char := (text.drop p).takeWhile isNumeralChar

/-- The digits and points right before a place. -/
def runBefore (text : List Char) (p : Nat) : List Char := (text.take p).rtakeWhile isNumeralChar

/-- From the place `p` on stand these digits and points, and none is right before or behind them. -/
structure IsRun (text : List Char) (p : Nat) (run : List Char) : Prop where
  nonempty : run ≠ []
  before : runBefore text p = []
  whole : runFrom text p = run

variable {before run rest text : List Char} {p : Nat}

theorem rtakeWhile_append (before : List Char) (hrun : ∀ c ∈ run, InNumeral c) :
    (before ++ run).rtakeWhile isNumeralChar = before.rtakeWhile isNumeralChar ++ run := by
  have hall : ∀ c ∈ run.reverse, isNumeralChar c := fun c hc =>
    isNumeralChar_iff.2 (hrun c (List.mem_reverse.1 hc))
  rw [List.rtakeWhile, List.rtakeWhile, List.reverse_append, List.takeWhile_append_of_pos hall,
    List.reverse_append, List.reverse_reverse]

theorem runBefore_length (before rest : List Char) :
    runBefore (before ++ rest) before.length = before.rtakeWhile isNumeralChar := by
  rw [runBefore, List.take_left]

theorem runBefore_append (before rest : List Char) (hrun : ∀ c ∈ run, InNumeral c) :
    runBefore (before ++ (run ++ rest)) (before.length + run.length) =
      before.rtakeWhile isNumeralChar ++ run := by
  rw [← List.append_assoc, ← List.length_append, runBefore_length, rtakeWhile_append before hrun]

theorem runFrom_append (before : List Char) (hrun : ∀ c ∈ run, InNumeral c)
    (hrest : EndsNumeral rest) : runFrom (before ++ (run ++ rest)) before.length = run := by
  rw [runFrom, List.drop_left, takeWhile_numeral hrun hrest]

theorem inNumeral_of_mem_rtakeWhile {c : Char} (h : c ∈ before.rtakeWhile isNumeralChar) :
    InNumeral c :=
  isNumeralChar_iff.1 (List.mem_rtakeWhile_imp h)

theorem IsRun.chars (h : IsRun text p run) : ∀ c ∈ run, InNumeral c := by
  intro c hc
  rw [← h.whole] at hc
  exact isNumeralChar_iff.1 (List.mem_takeWhile_imp hc)

/-- A run stands in the text where it begins. -/
theorem IsRun.exists_drop (h : IsRun text p run) : ∃ rest, text.drop p = run ++ rest := by
  refine ⟨(text.drop p).dropWhile isNumeralChar, ?_⟩
  rw [← h.whole, runFrom, List.takeWhile_append_dropWhile]

theorem isRun_append (hbefore : before.rtakeWhile isNumeralChar = []) (hne : run ≠ [])
    (hrun : ∀ c ∈ run, InNumeral c) (hrest : EndsNumeral rest) :
    IsRun (before ++ (run ++ rest)) before.length run where
  nonempty := hne
  before := by rw [runBefore_length, hbefore]
  whole := runFrom_append before hrun hrest

theorem endsNumeral_dropWhile (text : List Char) : EndsNumeral (text.dropWhile isNumeralChar) := by
  intro c hc hin
  have := List.head?_dropWhile_not isNumeralChar text
  rw [Option.mem_def.1 hc] at this
  exact absurd (isNumeralChar_iff.2 hin) (by simp [this])

theorem rtakeWhile_rdropWhile (before : List Char) :
    (before.rdropWhile isNumeralChar).rtakeWhile isNumeralChar = [] :=
  List.rtakeWhile_eq_nil_iff.2 fun hne => List.rdropWhile_last_not isNumeralChar before hne

/-- Every digit and every point is in a run, together with those right before it. -/
theorem exists_isRun {c : Char} (h : InNumeral c) (before rest : List Char) :
    ∃ p more, IsRun (before ++ c :: rest) p (before.rtakeWhile isNumeralChar ++ c :: more) := by
  have hrun : ∀ d ∈ before.rtakeWhile isNumeralChar ++ c :: rest.takeWhile isNumeralChar,
      InNumeral d := by
    refine List.forall_mem_append.2 ⟨fun d => inNumeral_of_mem_rtakeWhile, ?_⟩
    exact List.forall_mem_cons.2 ⟨h, fun d hd => isNumeralChar_iff.1 (List.mem_takeWhile_imp hd)⟩
  have hsplit : before ++ c :: rest = before.rdropWhile isNumeralChar ++
      ((before.rtakeWhile isNumeralChar ++ c :: rest.takeWhile isNumeralChar) ++
        rest.dropWhile isNumeralChar) := by
    rw [List.append_assoc, List.cons_append, List.takeWhile_append_dropWhile, ← List.append_assoc,
      List.rdropWhile_append_rtakeWhile]
  rw [hsplit]
  exact ⟨_, _, isRun_append (rtakeWhile_rdropWhile before) (by simp) hrun
    (endsNumeral_dropWhile rest)⟩

end ArithTree.Text
