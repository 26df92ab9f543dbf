import ArithTree.Fault
import ArithTree.Text.Numeral
import ArithTree.Token.Basic

/-!
# Reading lexemes

The full reader splits a text into whole numerals, binary operators and brackets, skips spaces, and
reports the leftmost fault: a character that belongs to no lexeme, a second point in a numeral, a
numeral that is just a point, or a closing bracket without an opening one. A text without such a
fault may still leave brackets open; then the innermost of them is reported.

* `lexemes` : the tokens of a text, or its first fault.
-/

namespace ArithTree.Token

/-- A fault at a position of a text. -/
def faultAt (position : Nat) (cause : Cause) : Except Fault (List Token) :=
  .error ⟨cause, some position⟩

/-- The tokens of `text`, which begins at `position` inside the brackets that were opened at the
positions `opened`, the innermost first. -/
def lexemesFrom (opened : List Nat) (position : Nat) (text : List Char) :
    Except Fault (List Token) :=
  match text with
  | [] =>
    match opened with
    | [] => .ok []
    | innermost :: _ => faultAt innermost .unclosed
  | c :: rest =>
    if _ : c.isDigit ∨ c = '.' then
      let span := Text.spanNumeral false (c :: rest)
      let next := position + span.1.length
      if span.2.head? = some '.' then faultAt next .secondPoint
      else if span.1 = ['.'] then faultAt position .lonePoint
      else (lexemesFrom opened next span.2).map
        (⟨String.ofList span.1, .number, some position⟩ :: ·)
    else if c = ' ' then lexemesFrom opened (position + 1) rest
    else if isOperator c then
      (lexemesFrom opened (position + 1) rest).map (ofChar .operator position c :: ·)
    else if c = '(' then
      (lexemesFrom (position :: opened) (position + 1) rest).map (ofChar .paren position c :: ·)
    else if c = ')' then
      match opened with
      | [] => faultAt position .unopened
      | _ :: opened =>
        (lexemesFrom opened (position + 1) rest).map (ofChar .paren position c :: ·)
    else faultAt position (.unknownSymbol c)
termination_by text.length
decreasing_by
  · exact Text.length_rest_lt ‹_›
  all_goals simp

/-- The tokens of a text. -/
def lexemes (text : String) : Except Fault (List Token) := lexemesFrom [] 0 text.toList

end ArithTree.Token
