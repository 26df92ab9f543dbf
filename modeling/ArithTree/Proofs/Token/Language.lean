import ArithTree.Proofs.Token.Cover
import ArithTree.Proofs.Token.Faults

/-!
# The language of the full reader

The texts that the full reader accepts are those over its alphabet whose rows of digits and points
are numerals and whose brackets are balanced. This is said without the reader, by counting, and so
is which fault of any other text is reported.

* `IsLexical` : the language.
* `lexemes_spec` : what is accepted, what the tokens of an accepted text are, and what is reported
  of any other.
-/

namespace ArithTree.Token

open Text

/-- A text over the alphabet in which every maximal row of digits and points has a digit and no
second point, and whose brackets are balanced. -/
structure IsLexical (text : List Char) : Prop where
  alphabet : ∀ c ∈ text, InAlphabet c
  runs : ∀ p run, IsRun text p run → run.count '.' ≤ 1 ∧ ∃ c ∈ run, c.isDigit
  balanced : IsBalanced text

variable {text run : List Char} {p : Nat} {kind : FaultKind}

/-! ### Texts without a fault -/

theorem exists_second_point (h : 2 ≤ run.count '.') :
    ∃ s t, run = s ++ '.' :: t ∧ s.count '.' = 1 := by
  have hfirst : '.' ∈ run := List.count_pos_iff.1 (by omega)
  obtain ⟨s, t, rfl, hs⟩ := List.eq_append_cons_of_mem hfirst
  rw [List.count_append, List.count_cons_self, List.count_eq_zero.2 hs] at h
  have hsecond : '.' ∈ t := List.count_pos_iff.1 (by omega)
  obtain ⟨u, v, rfl, hu⟩ := List.eq_append_cons_of_mem hsecond
  refine ⟨s ++ '.' :: u, v, by simp, ?_⟩
  rw [List.count_append, List.count_cons_self, List.count_eq_zero.2 hs, List.count_eq_zero.2 hu]

/-- A row of points without a second one is just a point. -/
theorem eq_point (hchars : ∀ c ∈ run, InNumeral c) (hne : run ≠ []) (hpoints : run.count '.' ≤ 1)
    (hdigit : ∀ c ∈ run, ¬ c.isDigit) : run = ['.'] := by
  obtain ⟨c, tail, rfl⟩ := List.exists_cons_of_ne_nil hne
  obtain rfl : c = '.' := (hchars c List.mem_cons_self).resolve_left (hdigit c List.mem_cons_self)
  rw [List.count_cons_self] at hpoints
  cases tail with
  | nil => rfl
  | cons d tail =>
    have hd : d ∈ '.' :: d :: tail := List.mem_cons_of_mem _ List.mem_cons_self
    obtain rfl : d = '.' := (hchars d hd).resolve_left (hdigit d hd)
    simp at hpoints

theorem exists_split_of_isRun (h : IsRun text p run) :
    ∃ before rest, text = before ++ (run ++ rest) ∧ before.length = p ∧
      before.rtakeWhile isNumeralChar = [] := by
  obtain ⟨rest, hdrop⟩ := h.exists_drop
  refine ⟨text.take p, rest, by rw [← hdrop, List.take_append_drop], ?_, h.before⟩
  refine List.length_take_of_le (Nat.le_of_not_lt fun hlt => h.nonempty ?_)
  rw [List.drop_eq_nil_of_le (Nat.le_of_lt hlt)] at hdrop
  exact (List.append_eq_nil_iff.1 hdrop.symm).1

theorem FaultFree.isLexical (h : FaultFree text) (hmatched : Matched text) : IsLexical text where
  alphabet := by
    intro c hc
    obtain ⟨p, hp⟩ := List.mem_iff_getElem?.1 hc
    exact Classical.byContradiction fun houtside => h p _ _ (.unknownSymbol hp houtside)
  runs := by
    intro p run hrun
    have hpoints : run.count '.' ≤ 1 := by
      refine Nat.le_of_not_lt fun hlt => ?_
      obtain ⟨s, t, rfl, hs⟩ := exists_second_point hlt
      obtain ⟨before, rest, rfl, rfl, hbefore⟩ := exists_split_of_isRun hrun
      have hchars := (List.forall_mem_append.1 hrun.chars).1
      refine h (before.length + s.length) _ _ (.secondPoint (by simp) ?_)
      rw [List.append_assoc, runBefore_append before _ hchars, hbefore, List.nil_append, hs]
    refine ⟨hpoints, Classical.byContradiction fun hdigit => ?_⟩
    have hnone : ∀ c ∈ run, ¬ c.isDigit := fun c hc hc' => hdigit ⟨c, hc, hc'⟩
    rw [eq_point hrun.chars hrun.nonempty hpoints hnone] at hrun
    exact h p _ _ (.lonePoint hrun)
  balanced := hmatched.isBalanced

/-! ### Texts with a fault -/

theorem FaultAt.not_isLexical {cause : Cause} (h : FaultAt text p kind cause) :
    ¬ IsLexical text := by
  intro hlexical
  cases h with
  | unknownSymbol char outside => exact outside (hlexical.alphabet _ (List.mem_of_getElem? char))
  | secondPoint char second =>
    obtain ⟨before, behind, rfl, rfl⟩ := exists_split char
    obtain ⟨q, more, hrun⟩ := exists_isRun (.inr rfl) before behind
    have hpoints := (hlexical.runs q _ hrun).1
    rw [runBefore_length] at second
    rw [List.count_append, second, List.count_cons_self] at hpoints
    omega
  | lonePoint isRun =>
    obtain ⟨c, hc, hdigit⟩ := (hlexical.runs p _ isRun).2
    exact isDigit_ne_point hdigit (List.mem_singleton.1 hc)
  | unopened char noneOpen =>
    obtain ⟨before, behind, rfl, rfl⟩ := exists_split char
    have hbeginning := hlexical.balanced.beginnings (before ++ [')']) (by simp)
    have hopen := count_opening_add_unopened 0 before
    rw [List.take_left] at noneOpen
    rw [List.count_append, List.count_append, List.count_singleton_self] at hbeginning
    have : [')'].count '(' = 0 := by decide
    omega

theorem Reports.not_isLexical {fault : Fault} (h : Reports text kind fault) : ¬ IsLexical text := by
  cases h with
  | leftmost fault => exact fault.not_isLexical
  | unclosed _ neverClosed =>
    exact fun hlexical => hlexical.balanced.matched.not_neverClosed _ neverClosed

/-- One fault is to be reported. -/
theorem Reports.unique {other : FaultKind} {fault fault' : Fault} (h : Reports text kind fault)
    (h' : Reports text other fault') : fault = fault' := by
  cases h with
  | leftmost hfault least =>
    cases h' with
    | leftmost hfault' least' =>
      obtain rfl := Nat.le_antisymm (least _ _ _ hfault') (least' _ _ _ hfault)
      rw [(hfault.unique hfault').2]
    | unclosed free => exact absurd hfault (free _ _ _)
  | unclosed free neverClosed last =>
    cases h' with
    | leftmost hfault' => exact absurd hfault' (free _ _ _)
    | unclosed _ neverClosed' last' =>
      rw [Nat.le_antisymm (last' _ neverClosed) (last _ neverClosed')]

/-! ### The reader -/

theorem isLexical_of_lexemes {text : String} {tokens : List Token}
    (h : lexemes text = .ok tokens) : IsLexical text.toList :=
  (faultFree_of_lexemes h).1.isLexical (faultFree_of_lexemes h).2

theorem exists_lexemes_iff_isLexical (text : String) :
    (∃ tokens, lexemes text = .ok tokens) ↔ IsLexical text.toList := by
  cases hlexemes : lexemes text with
  | ok tokens => exact ⟨fun _ => isLexical_of_lexemes hlexemes, fun _ => ⟨tokens, rfl⟩⟩
  | error fault =>
    exact ⟨nofun, fun hlexical => absurd hlexical (reports_of_lexemes hlexemes).not_isLexical⟩

theorem lexemes_eq_error_iff (text : String) (fault : Fault) :
    lexemes text = .error fault ↔ Reports text.toList fault.cause.kind fault := by
  refine ⟨reports_of_lexemes, fun hreports => ?_⟩
  cases hlexemes : lexemes text with
  | ok tokens => exact absurd (isLexical_of_lexemes hlexemes) hreports.not_isLexical
  | error reported => rw [(reports_of_lexemes hlexemes).unique hreports]

/-- **The full reader** accepts the texts of its language. The tokens of such a text cover it up to
spaces, with whole rows of digits and points for the numbers, and are read from their values again.
Of any other text it reports the leftmost fault, or else the bracket that was opened last of those
that are never closed. -/
theorem lexemes_spec (text : String) :
    ((∃ tokens, lexemes text = .ok tokens) ↔ IsLexical text.toList) ∧
    (∀ tokens, lexemes text = .ok tokens → Covers text.toList 0 tokens ∧
      ∃ again, lexemes (line tokens) = .ok again ∧
        again.map unplaced = tokens.map unplaced) ∧
    ∀ fault, lexemes text = .error fault ↔ Reports text.toList fault.cause.kind fault := by
  refine ⟨exists_lexemes_iff_isLexical text, fun tokens h => ⟨?_, exists_lexemes_line h⟩,
    lexemes_eq_error_iff text⟩
  exact (lexemesFrom_eq_ok_iff.1 h).covers (List.nil_append _) rfl (.inl rfl)

theorem lexemes_spec_brackets :
    let tokens := [opening 0, ⟨"7", .number, some 1⟩, closing 2]
    let fault : Fault := ⟨.secondPoint, some 3⟩
    (lexemes "(7)" = .ok tokens ∧ IsLexical "(7)".toList ∧ Covers "(7)".toList 0 tokens ∧
      ∃ again, lexemes (line tokens) = .ok again ∧ again.map unplaced = tokens.map unplaced) ∧
    lexemes "(1..2" = .error fault ∧ Reports "(1..2".toList .malformedNumber fault := by
  intro tokens fault
  have hreads : Reads 0 ('(' :: ['7'] ++ [')']) tokens :=
    .bracketed (.numeral (by decide))
  have hok : lexemes "(7)" = .ok tokens :=
    Reads.lexemes (show Reads 0 "(7)".toList tokens from hreads)
  have herror : lexemes "(1..2" = .error fault := by
    have htext : "(1..2".toList = ['(', '1', '.', '.', '2'] := rfl
    rw [lexemes, htext, lexemesFrom_opening, lexemesFrom.eq_def]
    rfl
  obtain ⟨hlexical, htokens, -⟩ := lexemes_spec "(7)"
  obtain ⟨hcovers, hagain⟩ := htokens tokens hok
  exact ⟨⟨hok, hlexical.1 ⟨tokens, hok⟩, hcovers, hagain⟩, herror,
    ((lexemes_spec "(1..2").2.2 fault).1 herror⟩

end ArithTree.Token
