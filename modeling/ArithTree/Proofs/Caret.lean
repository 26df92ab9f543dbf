import ArithTree.Proofs.Term.Marks
import ArithTree.Proofs.Token.Marks

/-!
# The caret of a report

A report has the wording of the fault, the text and a caret on a line each. The caret stands below
the character that the wording is about, in every analysis that ends with a fault; only the count of
the expressions that are left over has no place, and no caret.

* `Diagnostic.lines_ofFault` : the lines of a report.
* `caret_marks` : what the caret of an analysis stands below.
-/

namespace ArithTree

open Text

/-! ### Lines -/

namespace Diagnostic

/-- The lines of a report. -/
def lines (d : Diagnostic) : List (List Char) := (d.text none).toList.splitOn '\n'

/-- The first line of a report: code and wording. -/
def headline (d : Diagnostic) : List Char := ("Error " ++ d.code ++ ": " ++ d.messageText).toList

/-- A caret behind as many spaces as there are characters before the place. -/
def caretLine (p : Nat) : List Char := List.replicate p ' ' ++ ['^']

theorem not_mem_code (cause : Cause) : '\n' ∉ cause.code.toList := by
  cases cause <;> simp [Cause.code, Cause.kind, FaultKind.code]

theorem not_mem_caretLine (p : Nat) : '\n' ∉ caretLine p := by
  simp [caretLine, List.mem_replicate]

/-- A report on a single line of text. -/
theorem lines_ofFault {cause : Cause} {text : String} (htext : '\n' ∉ text.toList)
    (hmessage : '\n' ∉ cause.message.toList) (position : Option Nat) :
    let d := ofFault ⟨cause, position.map Int.ofNat⟩ (some text)
    d.lines = d.headline :: text.toList :: (position.map caretLine).toList := by
  intro d
  have hcode := not_mem_code cause
  have hheadline : '\n' ∉ d.headline := by
    simpa [d, headline, ofFault, messageText, or_imp] using ⟨hcode, hmessage⟩
  have htext' : (d.text none).toList =
      ['\n'].intercalate (d.headline :: text.toList :: (position.map caretLine).toList) := by
    rw [Diagnostic.text, String.toList_intercalate]
    cases position with
    | none => rfl
    | some p => simp [d, headline, ofFault, caret, caretLine]
  rw [lines, htext', List.splitOn_intercalate '\n' ?_ (List.cons_ne_nil _ _)]
  cases position with
  | none => simpa using ⟨hheadline, htext⟩
  | some p => simpa using ⟨hheadline, htext, not_mem_caretLine p⟩

end Diagnostic

/-! ### Wordings -/

/-- A wording that quotes a character. -/
theorem not_mem_quoting {c : Char} (h : '\n' ≠ c) {front back : String}
    (hfront : '\n' ∉ front.toList) (hback : '\n' ∉ back.toList) :
    '\n' ∉ (front ++ c.toString ++ back).toList := by
  simp [hfront, h, hback]

/-- A wording quotes the text at most, so it is a single line if the text is. -/
theorem Cause.Marks.not_mem_message {text : List Char} {p : Nat} {cause : Cause}
    (h : cause.Marks text p) (htext : '\n' ∉ text) : '\n' ∉ cause.message.toList := by
  have hchar : ∀ {c : Char}, text[p]? = some c → '\n' ≠ c := fun hc heq =>
    htext (heq ▸ List.mem_of_getElem? hc)
  cases cause with
  | unknownSymbol found | notInIdentifier found =>
    exact not_mem_quoting (hchar h) (by simp) (by simp)
  | missingOperands operator =>
    obtain ⟨c, hc, rfl⟩ := h
    exact not_mem_quoting (hchar hc) (by simp) (by simp)
  | misplacedOperand kind =>
    obtain ⟨c, -, ⟨rfl, -⟩ | ⟨rfl, -⟩ | ⟨rfl, -⟩⟩ := h <;> decide +kernel
  | unknownTokenKind | notOneExpression | unknownStrategy | crash => exact h.elim
  | _ => decide +kernel

theorem not_mem_message_notOneExpression (n : Nat) :
    '\n' ∉ (Cause.notOneExpression n).message.toList := by
  have hdigits : '\n' ∉ Nat.toDigits 10 n := fun hmem =>
    absurd (Nat.isDigit_of_mem_toDigits (by decide) (by decide) hmem) (by decide)
  show '\n' ∉ ("Expected exactly one expression, found " ++ n.repr ++ ".").toList
  simpa [Nat.repr] using hdigits

/-! ### Analyses -/

/-- Every fault of a text has a place that it marks, or it is the count at the end of the
folding. -/
theorem exists_fault_of_analyse {strategy : Strategy} (hstrategy : strategy ∈ [.term, .binary])
    {wholeNumbers : Bool} {text : String} {d : Diagnostic}
    (h : (analyse strategy wholeNumbers (some text)).result = .error d) :
    ∃ fault, d = .ofFault fault (some text) ∧
      (fault.IsMarked text.toList ∨ ∃ n, n ≠ 1 ∧ fault = ⟨.notOneExpression n, none⟩) := by
  cases strategy with
  | unknown => simp at hstrategy
  | term =>
    have h : (analyseTerm text).result = .error d := h
    rcases analyseTerm_cases text with ⟨fault, hscan, hend⟩ | ⟨tree, fault, hscan, hcheck, hend⟩ |
      ⟨tree, -, hend⟩
    · rw [hend] at h
      cases h
      exact ⟨fault, rfl, .inl (Term.isMarked_of_scan hscan)⟩
    · rw [hend] at h
      cases h
      exact ⟨fault, rfl, .inl (Term.isMarked_of_check hscan hcheck)⟩
    · rw [hend] at h
      cases h
  | binary =>
    have h : (analyseBinary wholeNumbers text).result = .error d := h
    rcases analyseBinary_cases wholeNumbers text with ⟨fault, -, hlexemes, -, hend⟩ |
      ⟨out, fault, hout, htree, hend⟩ | ⟨out, tree, -, -, hend⟩
    · rw [hend] at h
      cases h
      exact ⟨fault, rfl, .inl (Token.isMarked_of_lexemes hlexemes)⟩
    · rw [hend] at h
      cases h
      exact ⟨fault, rfl, Binary.isMarked_of_ofPostfix hout htree⟩
    · rw [hend] at h
      cases h

/-- **The caret stands below what the wording is about.** The place of a fault is marked by its
cause, and in the report on a single line of text the caret is as far to the right as that place. A
report has no place and no caret only if it counts the expressions that are left over. -/
theorem caret_marks {strategy : Strategy} (hstrategy : strategy ∈ [.term, .binary])
    {wholeNumbers : Bool} {text : String} {d : Diagnostic}
    (h : (analyse strategy wholeNumbers (some text)).result = .error d) :
    ∃ cause : Cause, d.kind = cause.kind ∧ d.message = some cause.message ∧
      ((∃ p : Nat, d.position = some (p : Int) ∧ cause.Marks text.toList p ∧
          ('\n' ∉ text.toList →
            d.lines = [d.headline, text.toList, Diagnostic.caretLine p])) ∨
        (d.position = none ∧ (∃ n, n ≠ 1 ∧ cause = .notOneExpression n) ∧
          ('\n' ∉ text.toList → d.lines = [d.headline, text.toList]))) := by
  obtain ⟨fault, rfl, ⟨p, hp, hmarks⟩ | ⟨n, hn, rfl⟩⟩ := exists_fault_of_analyse hstrategy h
  · obtain ⟨cause, position⟩ := fault
    cases hp
    refine ⟨cause, rfl, rfl, .inl ⟨p, rfl, hmarks, fun htext => ?_⟩⟩
    exact Diagnostic.lines_ofFault htext (hmarks.not_mem_message htext) (some p)
  · refine ⟨_, rfl, rfl, .inr ⟨rfl, ⟨n, hn, rfl⟩, fun htext => ?_⟩⟩
    exact Diagnostic.lines_ofFault htext (not_mem_message_notOneExpression n) none

theorem caret_marks_bracket :
    ∃ d, (analyse .binary false (some "1*(2+")).result = .error d ∧
      d.message = some "Operator '(' needs two operands." ∧
      d.lines = [d.headline, "1*(2+".toList, "  ^".toList] := by
  have h : (analyse .binary false (some "1*(2+")).result =
      .error (.ofFault ⟨.missingOperands "(", some 2⟩ (some "1*(2+")) := rfl
  refine ⟨_, h, rfl, ?_⟩
  obtain ⟨cause, -, -, ⟨p, hp, -, hlines⟩ | ⟨hnone, -⟩⟩ := caret_marks (by decide) h
  · cases hp
    exact hlines (by decide)
  · cases hnone

end ArithTree
