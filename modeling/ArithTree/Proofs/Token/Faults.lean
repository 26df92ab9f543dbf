import ArithTree.Proofs.Text.Balance
import ArithTree.Proofs.Text.Runs
import ArithTree.Proofs.Token.Lexing

/-!
# The faults of a text

What is wrong with a text is said of its places, without a reader: a character outside of the
alphabet, a second point in a row of digits and points, a row that is just a point, a closing
bracket where none is open. The full reader looks at the places from the left, so it reports the
first of these; only if there is none it looks for brackets that were never closed.

* `FaultAt` : the faults of a text.
* `Reports` : the one of them that is reported.
* `judged_lexemes` : the reader reports that one, or there is none and all brackets match.
-/

namespace ArithTree.Token

open Text

/-! ### Faults and places -/

/-- A character of lexemes and of the space between them. -/
def InAlphabet (c : Char) : Prop := c.isDigit ∨ c ∈ [' ', '.', '+', '-', '*', '/', '(', ')']

/-- The faults that a text has at a place, each with its kind. -/
inductive FaultAt (text : List Char) (p : Nat) : FaultKind → Cause → Prop where
  /-- A character outside of the alphabet. -/
  | unknownSymbol {c : Char} (char : text[p]? = some c) (outside : ¬ InAlphabet c) :
    FaultAt text p .unexpectedSymbol (.unknownSymbol c)
  /-- The second point of a run. -/
  | secondPoint (char : text[p]? = some '.') (second : (runBefore text p).count '.' = 1) :
    FaultAt text p .malformedNumber .secondPoint
  /-- A run that is just a point. -/
  | lonePoint (isRun : IsRun text p ['.']) : FaultAt text p .malformedNumber .lonePoint
  /-- A closing bracket where none is open. -/
  | unopened (char : text[p]? = some ')') (noneOpen : unclosed 0 (text.take p) = 0) :
    FaultAt text p .unbalancedParenthesis .unopened

/-- A text without such a fault; brackets may still be open at its end. -/
def FaultFree (text : List Char) : Prop := ∀ p kind cause, ¬ FaultAt text p kind cause

/-- The fault that is reported: the leftmost one, or else the bracket that was opened last of those
that are never closed. -/
inductive Reports (text : List Char) : FaultKind → Fault → Prop where
  | leftmost {p : Nat} {kind : FaultKind} {cause : Cause} (fault : FaultAt text p kind cause)
    (least : ∀ q kind cause, FaultAt text q kind cause → p ≤ q) : Reports text kind ⟨cause, some p⟩
  | unclosed {p : Nat} (free : FaultFree text) (neverClosed : NeverClosed text p)
    (last : ∀ q, NeverClosed text q → q ≤ p) :
    Reports text .unbalancedParenthesis ⟨.unclosed, some p⟩

theorem inAlphabet_of_inNumeral {c : Char} (h : InNumeral c) : InAlphabet c := by
  rcases h with hdigit | rfl
  · exact .inl hdigit
  · exact .inr (by decide)

theorem inAlphabet_of_isOperator {c : Char} (h : isOperator c) : InAlphabet c := by
  have hmem := isOperator_iff.1 h
  simp only [List.mem_cons, List.not_mem_nil, or_false] at hmem
  rcases hmem with rfl | rfl | rfl | rfl <;> exact .inr (by decide)

/-- The alphabet by the classes of the reader. -/
theorem inAlphabet_cases {c : Char} (h : InAlphabet c) :
    InNumeral c ∨ c = ' ' ∨ isOperator c ∨ c = '(' ∨ c = ')' := by
  rcases h with hdigit | hmem
  · exact .inl (.inl hdigit)
  · simp only [List.mem_cons, List.not_mem_nil, or_false] at hmem
    rcases hmem with rfl | rfl | rfl | rfl | rfl | rfl | rfl | rfl <;>
      simp [InNumeral, isOperator_iff]

section Places

variable {before rest run text : List Char} {c : Char} {p : Nat} {kind other : FaultKind}
  {cause cause' : Cause}

theorem getElem?_isRun (h : IsRun text p (c :: run)) : text[p]? = some c := by
  obtain ⟨rest, hdrop⟩ := h.exists_drop
  rw [← List.head?_drop, hdrop, List.cons_append, List.head?_cons]

/-- The only fault that a character can be, where a number of points is in the run before it. -/
def possibleFault (points : Nat) (c : Char) : FaultKind × Cause :=
  if c = ')' then (.unbalancedParenthesis, .unopened)
  else if c = '.' then (.malformedNumber, if points = 1 then .secondPoint else .lonePoint)
  else (.unexpectedSymbol, .unknownSymbol c)

theorem FaultAt.eq_possibleFault (h : FaultAt text p kind cause) :
    ∃ c, text[p]? = some c ∧
      (kind, cause) = possibleFault ((runBefore text p).count '.') c := by
  cases h with
  | @unknownSymbol c char outside =>
    have hclosing : c ≠ ')' := by
      rintro rfl
      exact outside (.inr (by decide))
    have hpoint : c ≠ '.' := by
      rintro rfl
      exact outside (.inr (by decide))
    exact ⟨c, char, by rw [possibleFault, if_neg hclosing, if_neg hpoint]⟩
  | secondPoint char second => exact ⟨'.', char, by rw [second]; rfl⟩
  | lonePoint isRun => exact ⟨'.', getElem?_isRun isRun, by rw [isRun.before]; rfl⟩
  | unopened char => exact ⟨')', char, rfl⟩

/-- At one place there is at most one fault. -/
theorem FaultAt.unique (h : FaultAt text p kind cause) (h' : FaultAt text p other cause') :
    kind = other ∧ cause = cause' := by
  obtain ⟨c, hc, heq⟩ := h.eq_possibleFault
  obtain ⟨d, hd, heq'⟩ := h'.eq_possibleFault
  cases hc.symm.trans hd
  exact Prod.mk.inj (heq.trans heq'.symm)

theorem FaultAt.lt_length (h : FaultAt text p kind cause) : p < text.length := by
  obtain ⟨c, hc, -⟩ := h.eq_possibleFault
  exact (List.getElem?_eq_some_iff.1 hc).1

/-- A character that is not in a number is no fault, unless it is unknown or closes nothing. -/
theorem FaultAt.symbol (h : FaultAt (before ++ c :: rest) before.length kind cause)
    (hc : ¬ InNumeral c) : ¬ InAlphabet c ∨ c = ')' ∧ unclosed 0 before = 0 := by
  have hchar : (before ++ c :: rest)[before.length]? = some c := by simp
  cases h with
  | unknownSymbol char outside =>
    cases hchar.symm.trans char
    exact .inl outside
  | secondPoint char =>
    cases hchar.symm.trans char
    exact absurd (.inr rfl) hc
  | lonePoint isRun =>
    cases hchar.symm.trans (getElem?_isRun isRun)
    exact absurd (.inr rfl) hc
  | unopened char noneOpen =>
    cases hchar.symm.trans char
    rw [List.take_left] at noneOpen
    exact .inr ⟨rfl, noneOpen⟩

/-- A row of digits with one point among them has no fault, unless it is just the point. -/
theorem not_faultAt_of_run (hbefore : before.rtakeWhile isNumeralChar = [])
    (hrun : ∀ c ∈ run, InNumeral c) (hpoints : run.count '.' ≤ 1)
    (hlone : ¬ IsRun (before ++ (run ++ rest)) before.length ['.']) (hle : before.length ≤ p)
    (hlt : p < before.length + run.length) :
    ¬ FaultAt (before ++ (run ++ rest)) p kind cause := by
  obtain ⟨i, rfl⟩ := Nat.exists_eq_add_of_le hle
  have hi : i < run.length := by omega
  obtain ⟨s, t, hsplit, rfl⟩ := exists_split (List.getElem?_eq_getElem hi)
  generalize run[s.length] = d at hsplit
  subst hsplit
  obtain ⟨hs, hdt⟩ := List.forall_mem_append.1 hrun
  have hd := (List.forall_mem_cons.1 hdt).1
  have hwhole : before ++ (s ++ d :: t ++ rest) = before ++ (s ++ d :: (t ++ rest)) := by simp
  rw [hwhole] at hlone ⊢
  have hchar : (before ++ (s ++ d :: (t ++ rest)))[before.length + s.length]? = some d := by
    simp
  have hbehind : runBefore (before ++ (s ++ d :: (t ++ rest))) (before.length + s.length) = s := by
    rw [runBefore_append before _ hs, hbefore, List.nil_append]
  intro h
  cases h with
  | unknownSymbol char outside =>
    cases hchar.symm.trans char
    exact outside (inAlphabet_of_inNumeral hd)
  | secondPoint char second =>
    cases hchar.symm.trans char
    rw [hbehind] at second
    rw [List.count_append, List.count_cons_self] at hpoints
    omega
  | lonePoint isRun =>
    obtain rfl : s = [] := hbehind.symm.trans isRun.before
    exact hlone isRun
  | unopened char =>
    cases hchar.symm.trans char
    exact absurd rfl (not_bracket_of_inNumeral hd).2

end Places

/-! ### The reader -/

/-- What the reader is to make of a text. -/
def Judged (text : List Char) : Except Fault (List Token) → Prop
  | .ok _ => FaultFree text ∧ Matched text
  | .error fault => Reports text fault.cause.kind fault

theorem judged_map {text : List Char} {x : Except Fault (List Token)}
    {f : List Token → List Token} (h : Judged text x) : Judged text (x.map f) := by
  cases x with
  | ok tokens => exact h
  | error fault => exact h

/-- The state of the reader inside a text: what it has read, which holds no fault and leaves the
given brackets open, and what is in front of it, which does not continue a number. -/
structure Reached (whole : List Char) (opened : List Nat) (before text : List Char) : Prop where
  split : before ++ text = whole
  fresh : before.rtakeWhile isNumeralChar = [] ∨ EndsNumeral text
  brackets : Opened opened before
  clean : ∀ p < before.length, ∀ kind cause, ¬ FaultAt whole p kind cause

namespace Reached

variable {whole before run rest : List Char} {opened still : List Nat} {c : Char}

theorem fresh_of_inNumeral (h : Reached whole opened before (c :: rest)) (hc : InNumeral c) :
    before.rtakeWhile isNumeralChar = [] :=
  h.fresh.resolve_right fun hends => endsNumeral_cons.1 hends hc

/-- A fault in front of the reader is the leftmost one. -/
theorem reports {text : List Char} {kind : FaultKind} {cause : Cause}
    (h : Reached whole opened before text) (hfault : FaultAt whole before.length kind cause) :
    Reports whole kind ⟨cause, some before.length⟩ :=
  .leftmost hfault fun q kind cause hq => Nat.le_of_not_lt fun hlt => h.clean q hlt kind cause hq

theorem symbol (h : Reached whole opened before (c :: rest)) (hc : ¬ InNumeral c)
    (hknown : InAlphabet c) (hclosing : c = ')' → opened ≠ [])
    (hstill : Opened still (before ++ [c])) : Reached whole still (before ++ [c]) rest where
  split := (List.append_assoc before [c] rest).trans h.split
  fresh := .inl (List.rtakeWhile_concat_neg _ _ _ (mt isNumeralChar_iff.1 hc))
  brackets := hstill
  clean := by
    intro p hp kind cause hfault
    rw [List.length_append, List.length_singleton, Nat.lt_succ_iff_lt_or_eq] at hp
    rcases hp with hp | rfl
    · exact h.clean p hp kind cause hfault
    · rw [← h.split] at hfault
      rcases hfault.symbol hc with hunknown | ⟨hc, hnone⟩
      · exact hunknown hknown
      · rw [h.brackets.unclosed_eq, List.length_eq_zero_iff] at hnone
        exact hclosing hc hnone

/-- Over a space or an operator. -/
theorem other (h : Reached whole opened before (c :: rest)) (hc : ¬ InNumeral c)
    (hknown : InAlphabet c) (hbracket : c ≠ '(' ∧ c ≠ ')') :
    Reached whole opened (before ++ [c]) rest :=
  h.symbol hc hknown (fun heq => absurd heq hbracket.2)
    (h.brackets.append (matched_of_unbracketed (List.forall_mem_singleton.2 hbracket)))

/-- There is no fault in a row of digits with one point among them, unless it is just the point. -/
theorem clean_append (h : Reached whole opened before (run ++ rest))
    (hbefore : before.rtakeWhile isNumeralChar = []) (hrun : ∀ c ∈ run, InNumeral c)
    (hpoints : run.count '.' ≤ 1) (hlone : ¬ IsRun whole before.length ['.']) :
    ∀ p < (before ++ run).length, ∀ kind cause, ¬ FaultAt whole p kind cause := by
  intro p hp kind cause
  rw [List.length_append] at hp
  rcases Nat.lt_or_ge p before.length with hlt | hge
  · exact h.clean p hlt kind cause
  · rw [← h.split] at hlone ⊢
    exact not_faultAt_of_run hbefore hrun hpoints hlone hge hp

theorem numeral (h : Reached whole opened before (run ++ rest)) (isNumeral : IsNumeral run)
    (ends : EndsNumeral rest) : Reached whole opened (before ++ run) rest where
  split := (List.append_assoc before run rest).trans h.split
  fresh := .inr ends
  brackets := h.brackets.append (matched_of_unbracketed fun c hc =>
    not_bracket_of_inNumeral (isNumeral.chars c hc))
  clean := by
    obtain ⟨d, hd, hdigit⟩ := isNumeral.digit
    have hbefore := h.fresh.resolve_right (isNumeral.not_endsNumeral rest)
    refine h.clean_append hbefore isNumeral.chars isNumeral.points fun isRun => ?_
    have hrun := isRun.whole
    rw [← h.split, runFrom_append before isNumeral.chars ends] at hrun
    rw [hrun, List.mem_singleton] at hd
    exact isDigit_ne_point hdigit hd

theorem secondPoint (h : Reached whole opened before (run ++ '.' :: rest))
    (hrun : ∀ c ∈ run, InNumeral c) (hpoints : run.count '.' = 1) :
    Reports whole .malformedNumber ⟨.secondPoint, some (before.length + run.length : Nat)⟩ := by
  obtain ⟨c, tail, hcons⟩ : ∃ c tail, run = c :: tail :=
    List.exists_cons_of_ne_nil fun hnil => by simp [hnil] at hpoints
  have hbefore : before.rtakeWhile isNumeralChar = [] := by
    rw [hcons] at h hrun
    exact h.fresh_of_inNumeral (hrun c List.mem_cons_self)
  refine .leftmost (.secondPoint ?_ ?_) fun q kind cause hq => Nat.le_of_not_lt fun hlt => ?_
  · rw [← h.split]
    simp
  · rw [← h.split, runBefore_append before _ hrun, hbefore, List.nil_append, hpoints]
  · refine h.clean_append hbefore hrun (Nat.le_of_eq hpoints) (fun isRun => ?_) q ?_ kind cause hq
    · -- A run with two points is not just a point.
      have hall : ∀ d ∈ run, isNumeralChar d := fun d hd => isNumeralChar_iff.2 (hrun d hd)
      have hwhole := isRun.whole
      rw [← h.split, runFrom, List.drop_left, List.takeWhile_append_of_pos hall,
        List.takeWhile_cons_of_pos rfl, hcons] at hwhole
      simp at hwhole
    · rwa [List.length_append]

theorem lonePoint (h : Reached whole opened before ('.' :: rest)) (ends : EndsNumeral rest) :
    Reports whole .malformedNumber ⟨.lonePoint, some before.length⟩ := by
  have hbefore := h.fresh_of_inNumeral (.inr rfl)
  have hpoint : ∀ c ∈ ['.'], InNumeral c := List.forall_mem_singleton.2 (.inr rfl)
  refine h.reports (.lonePoint ?_)
  rw [← h.split]
  exact isRun_append hbefore (List.cons_ne_nil _ _) hpoint ends

theorem unopened (h : Reached whole [] before (')' :: rest)) :
    Reports whole .unbalancedParenthesis ⟨.unopened, some before.length⟩ := by
  refine h.reports (.unopened ?_ ?_)
  · rw [← h.split]
    simp
  · rw [← h.split, List.take_left, h.brackets.unclosed_eq, List.length_nil]

theorem unknownSymbol (h : Reached whole opened before (c :: rest)) (hc : ¬ InAlphabet c) :
    Reports whole .unexpectedSymbol ⟨.unknownSymbol c, some before.length⟩ := by
  refine h.reports (.unknownSymbol ?_ hc)
  rw [← h.split]
  simp

theorem faultFree (h : Reached whole opened before []) :
    FaultFree whole ∧ Opened opened whole := by
  obtain rfl : before = whole := (List.append_nil before).symm.trans h.split
  exact ⟨fun p kind cause hp => h.clean p hp.lt_length kind cause hp, h.brackets⟩

end Reached

theorem judged_of_reached {whole before text : List Char} {opened : List Nat} {p : Nat}
    (h : Reached whole opened before text) (hp : before.length = p) :
    Judged whole (lexemesFrom opened p text) := by
  fun_induction lexemesFrom opened p text generalizing before with
  | case1 p =>
    obtain ⟨hfree, hbrackets⟩ := h.faultFree
    cases hbrackets with
    | nil matched => exact ⟨hfree, matched⟩
  | case2 p innermost opened =>
    obtain ⟨hfree, hbrackets⟩ := h.faultFree
    exact .unclosed hfree hbrackets.neverClosed fun q => hbrackets.le_of_neverClosed
  | case3 opened p c rest _ span next =>
    rename_i hpoint
    subst hp
    obtain ⟨behind, hbehind⟩ := List.head?_eq_some_iff.1 hpoint
    have hcount : span.1.count '.' = 1 := by
      refine Nat.le_antisymm (by simpa using count_point_span false (c :: rest)) ?_
      exact List.one_le_count_iff.2 ((point_mem_span hpoint).resolve_left Bool.false_ne_true)
    rw [← spanNumeral_append false (c :: rest), hbehind] at h
    exact h.secondPoint (fun _ => inNumeral_of_mem_span) hcount
  | case4 opened p c rest _ span hsecond =>
    rename_i hlone
    subst hp
    rw [← spanNumeral_append false (c :: rest), hlone] at h
    exact h.lonePoint (endsNumeral_span hsecond)
  | case5 opened p c rest hc span next hsecond hlone =>
    rename_i ih
    rw [← spanNumeral_append false (c :: rest)] at h
    have hnext := h.numeral (isNumeral_span_of_ne hc hlone) (endsNumeral_span hsecond)
    exact judged_map (ih hnext (by rw [List.length_append, hp]))
  | case6 opened p rest hc ih =>
    exact ih (h.other hc (.inr (by decide)) (by decide)) (by simp [hp])
  | case7 opened p c rest hc _ hop ih =>
    have hnext := h.other hc (inAlphabet_of_isOperator hop) (not_bracket_of_isOperator hop)
    exact judged_map (ih hnext (by simp [hp]))
  | case8 opened p rest hc _ _ ih =>
    subst hp
    have hnext := h.symbol hc (.inr (by decide)) (fun heq => absurd heq (by decide))
      h.brackets.opening
    exact judged_map (ih hnext (by simp))
  | case9 p rest =>
    subst hp
    exact h.unopened
  | case10 p rest innermost opened hc _ _ _ ih =>
    have hnext := h.symbol hc (.inr (by decide)) (fun _ => List.cons_ne_nil _ _) h.brackets.closing
    exact judged_map (ih hnext (by simp [hp]))
  | case11 opened p c rest hnumeral hspace hop hopening =>
    rename_i hclosing
    subst hp
    refine h.unknownSymbol fun hknown => ?_
    rcases inAlphabet_cases hknown with hc | hc | hc | hc | hc
    · exact hnumeral hc
    · exact hspace hc
    · exact hop hc
    · exact hopening hc
    · exact hclosing hc

/-- **The reader reports the fault that is to be reported**, or there is none and all brackets
match. -/
theorem judged_lexemes (text : String) : Judged text.toList (lexemes text) :=
  judged_of_reached ⟨rfl, .inl rfl, .nil .nil, nofun⟩ rfl

theorem faultFree_of_lexemes {text : String} {tokens : List Token} (h : lexemes text = .ok tokens) :
    FaultFree text.toList ∧ Matched text.toList := by
  have hjudged := judged_lexemes text
  rwa [h] at hjudged

theorem reports_of_lexemes {text : String} {fault : Fault} (h : lexemes text = .error fault) :
    Reports text.toList fault.cause.kind fault := by
  have hjudged := judged_lexemes text
  rwa [h] at hjudged

theorem Reports.kind_mem {text : List Char} {kind : FaultKind} {fault : Fault}
    (h : Reports text kind fault) :
    kind ∈ [FaultKind.malformedNumber, .unexpectedSymbol, .unbalancedParenthesis] := by
  cases h with
  | leftmost fault => cases fault <;> simp
  | unclosed => simp

end ArithTree.Token
