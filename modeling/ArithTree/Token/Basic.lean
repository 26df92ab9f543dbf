/-!
# Tokens

The parts of a text for the binary tree: numbers, the four binary operators and brackets. A token
keeps its source text; where a sequence of tokens does not come from a text, positions may be
absent and kinds may be any names.
-/

namespace ArithTree

namespace Token

/-- The names of the kinds that have a meaning. -/
def kindNames : List String := ["number", "operator", "paren"]

/-- What a token stands for. -/
inductive Kind where
  | number
  | operator
  | paren
  /-- A kind without a meaning, with a name that no other kind has. -/
  | other (name : String) (unlisted : name ∉ kindNames)
  deriving DecidableEq

namespace Kind

/-- The name of a kind. -/
def name : Kind → String
  | number => "number"
  | operator => "operator"
  | paren => "paren"
  | other name _ => name

/-- The kind of a given name. -/
def ofName (name : String) : Kind :=
  if h : name ∈ kindNames then
    if name = "number" then number
    else if name = "operator" then operator
    else paren
  else other name h

end Kind

end Token

/-- A part of a text, or of a sequence in postfix order. -/
structure Token where
  /-- The source text. -/
  value : String
  /-- What it stands for. -/
  kind : Token.Kind
  /-- The number of characters before it. -/
  position : Option Int
  deriving DecidableEq

namespace Token

/-- How tightly an operator binds, if it is a binary operator; higher binds tighter. -/
def precedence? : String → Option Nat
  | "+" => some 1
  | "-" => some 1
  | "*" => some 2
  | "/" => some 2
  | _ => none

/-- Whether a character is a binary operator. -/
def isOperator (c : Char) : Bool := (precedence? c.toString).isSome

/-- A token of one character of a text. -/
def ofChar (kind : Kind) (position : Nat) (c : Char) : Token :=
  ⟨c.toString, kind, some position⟩

/-- The values of a sequence, with spaces between them. -/
def line (tokens : List Token) : String := " ".intercalate (tokens.map Token.value)

end Token

end ArithTree
