import ArithTree.Token.Basic

/-!
# Reading symbol by symbol

The simple reader looks at every character on its own: the digits 1 to 9 are numbers, the binary
operators and brackets are tokens, and anything else is skipped, zeros and points included. It has
no faults.
-/

namespace ArithTree.Token

/-- The token that a character makes at a position. -/
def ofSymbol? (position : Nat) (c : Char) : Option Token :=
  if c.isDigit ∧ c ≠ '0' then some (ofChar .number position c)
  else if isOperator c then some (ofChar .operator position c)
  else if c = '(' ∨ c = ')' then some (ofChar .paren position c)
  else none

/-- The tokens of `text`, which begins at `position`. -/
def splitFrom (position : Nat) : List Char → List Token
  | [] => []
  | c :: rest => (ofSymbol? position c).toList ++ splitFrom (position + 1) rest

/-- The tokens of a text, each of one character. -/
def split (text : String) : List Token := splitFrom 0 text.toList

end ArithTree.Token
