import ArithTree.Fault
import ArithTree.Text.Letter
import ArithTree.Text.Symbol

/-!
# The place that a fault speaks of

The place of a fault is not just any place of the text: what stands at it, and next to it apart from
spaces, is what the wording of the fault is about.

* `Blank` : a stretch of a text with nothing but spaces in it.
* `Cause.Marks` : what a cause says of the text around the place that it is reported at.
-/

namespace ArithTree

namespace Text

/-- From the place `p` on and before `q` there are only spaces. -/
def Blank (text : List Char) (p q : Nat) : Prop := ∀ i, p ≤ i → i < q → text[i]? = some ' '

theorem blank_self (text : List Char) (p : Nat) : Blank text p p :=
  fun _ hle hlt => absurd hle (Nat.not_le.2 hlt)

theorem Blank.snoc {text : List Char} {p q : Nat} (h : Blank text p q)
    (char : text[q]? = some ' ') : Blank text p (q + 1) := by
  intro i hle hlt
  rcases Nat.lt_succ_iff_lt_or_eq.1 hlt with hlt | rfl
  · exact h i hle hlt
  · exact char

/-- A character of a text that stands for an operator of a term. -/
def IsOperatorAt (text : List Char) (p : Nat) : Prop := ∃ c ∈ operatorSymbols, text[p]? = some c

end Text

open Text

/-- What a cause says of the text at the place `p`. A cause that says nothing of a place marks
none. -/
def Cause.Marks (text : List Char) (p : Nat) : Cause → Prop
  | endOfText | missingClose => p = text.length
  | unknownSymbol found | notInIdentifier found => text[p]? = some found
  | strayClose | unopened => text[p]? = some ')'
  | unclosed => text[p]? = some '('
  | secondPoint | lonePoint => text[p]? = some '.'
  | emptyBody =>
    (text[p]? = some '(' ∧ ∃ q, p < q ∧ Blank text (p + 1) q ∧ text[q]? = some ')') ∨
      (p = 0 ∧ Blank text 0 text.length)
  | leadingOperator =>
    IsOperatorAt text p ∧
      ((∃ q, q < p ∧ text[q]? = some '(' ∧ Blank text (q + 1) p) ∨ Blank text 0 p)
  | doubledOperator =>
    IsOperatorAt text p ∧ ∃ q, q < p ∧ IsOperatorAt text q ∧ Blank text (q + 1) p
  | danglingOperator =>
    IsOperatorAt text p ∧
      ∃ q, p < q ∧ Blank text (p + 1) q ∧ (text[q]? = some ')' ∨ q = text.length)
  | misplacedOperand kind =>
    ∃ c, text[p]? = some c ∧ ((kind = "number" ∧ c.isDigit) ∨ (kind = "identifier" ∧ isLetter c) ∨
      (kind = "term" ∧ c = '('))
  | missingOperands operator => ∃ c, text[p]? = some c ∧ operator = c.toString
  | unknownTokenKind _ | notOneExpression _ | unknownStrategy _ | crash _ => False

/-- A fault at a place that its cause marks. -/
def Fault.IsMarked (text : List Char) (fault : Fault) : Prop :=
  ∃ p : Nat, fault.position = some (p : Int) ∧ fault.cause.Marks text p

end ArithTree
