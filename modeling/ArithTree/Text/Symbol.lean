import ArithTree.Text.Letter

/-!
# Classes of symbols

The classes that single symbols are sorted by, for strings of any length: a string of several
digits counts as digits only if they follow each other in the order from zero to nine, so the empty
string does.
-/

namespace ArithTree.Text

/-- The digits in their order. -/
def orderedDigits : List Char := "0123456789".toList

/-- Whether a string is a part of the row of the digits in their order. -/
def isDigits (s : String) : Bool :=
  (List.range (orderedDigits.length + 1)).any fun start =>
    s.toList.isPrefixOf (orderedDigits.drop start)

/-- Whether a string is made of letters and not empty. -/
def isWord (s : String) : Bool := s ≠ "" && s.toList.all isLetter

/-- The symbols that are operators of a term. -/
def operatorSymbols : List Char := ['+', '-', '*', '/', '=']

/-- Whether a string is one of the operators of a term. -/
def isTermOperator (s : String) : Bool := (operatorSymbols.map Char.toString).contains s

/-- Whether a string counts as digits and is not the digit zero. -/
def isNonzeroDigits (s : String) : Bool := isDigits s && s ≠ "0"

end ArithTree.Text
