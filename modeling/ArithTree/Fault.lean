import ArithTree.Text.Quoted

/-!
# Faults

A text that is no expression is answered by a `Fault`: a cause and, for nearly all causes, the
place in the text that it speaks of. The cause fixes the kind of the fault (with its family and its
four-digit code) and the message. A `Diagnostic` is what is reported: the fault together with the
text it was found in.

A `Breakdown` is something else: an operation was given values that it is not meant for. No text
leads to one; one that surfaces in an analysis is reported as a fault with the cause `crash`.

* `Diagnostic.text` : message, source line and a caret under the place.
-/

namespace ArithTree

/-- The kinds of faults: four groups below one root, and the kinds of each group. -/
inductive FaultKind where
  | tree
  | scan
  | validation
  | reduction
  | configuration
  | unexpectedCharacter
  | malformedNumber
  | unexpectedSymbol
  | unexpectedEndOfInput
  | emptyBody
  | leadingOperator
  | unexpectedNodeType
  | unexpectedEndOfTerm
  | unexpectedOperator
  | invalidPostfix
  | unbalancedParenthesis
  deriving DecidableEq

namespace FaultKind

/-- All kinds. -/
def all : List FaultKind :=
  [tree, scan, validation, reduction, configuration, unexpectedCharacter, malformedNumber,
    unexpectedSymbol, unexpectedEndOfInput, emptyBody, leadingOperator, unexpectedNodeType,
    unexpectedEndOfTerm, unexpectedOperator, invalidPostfix, unbalancedParenthesis]

/-- The name that a kind is reported by. -/
def name : FaultKind → String
  | tree => "TreeError"
  | scan => "ScanError"
  | validation => "ValidationError"
  | reduction => "ReduceError"
  | configuration => "ConfigurationError"
  | unexpectedCharacter => "UnexpectedCharacter"
  | malformedNumber => "MalformedNumber"
  | unexpectedSymbol => "UnexpectedSymbol"
  | unexpectedEndOfInput => "UnexpectedEndOfInput"
  | emptyBody => "EmptyBody"
  | leadingOperator => "LeadingOperator"
  | unexpectedNodeType => "UnexpectedNodeType"
  | unexpectedEndOfTerm => "UnexpectedEndOfTerm"
  | unexpectedOperator => "UnexpectedOperator"
  | invalidPostfix => "InvalidPostfixExpression"
  | unbalancedParenthesis => "UnbalancedParenthesis"

/-- The kind of a given name. -/
def ofName? (s : String) : Option FaultKind := all.find? (·.name = s)

/-- A kind and the groups it belongs to, the narrowest first. -/
def lineage : FaultKind → List FaultKind
  | tree => [tree]
  | scan => [scan, tree]
  | validation => [validation, tree]
  | reduction => [reduction, tree]
  | configuration => [configuration, tree]
  | unexpectedCharacter => [unexpectedCharacter, scan, tree]
  | malformedNumber => [malformedNumber, scan, tree]
  | unexpectedSymbol => [unexpectedSymbol, scan, tree]
  | unexpectedEndOfInput => [unexpectedEndOfInput, scan, tree]
  | emptyBody => [emptyBody, validation, tree]
  | leadingOperator => [leadingOperator, validation, tree]
  | unexpectedNodeType => [unexpectedNodeType, validation, tree]
  | unexpectedEndOfTerm => [unexpectedEndOfTerm, validation, tree]
  | unexpectedOperator => [unexpectedOperator, validation, tree]
  | invalidPostfix => [invalidPostfix, reduction, tree]
  | unbalancedParenthesis => [unbalancedParenthesis, reduction, tree]

/-- The code of a kind, which a report may override. Groups share the code of the root. -/
def code : FaultKind → String
  | tree | scan | validation | reduction | configuration => "9999"
  | unexpectedCharacter => "2000"
  | malformedNumber => "2001"
  | unexpectedSymbol => "2002"
  | unexpectedEndOfInput => "2003"
  | emptyBody => "3000"
  | leadingOperator => "3001"
  | unexpectedNodeType => "3002"
  | unexpectedEndOfTerm => "3003"
  | unexpectedOperator => "3004"
  | invalidPostfix => "4000"
  | unbalancedParenthesis => "4001"

end FaultKind

/-! ### Codes -/

/-- The area that a code belongs to, told by its first digit. -/
def codeArea? (code : String) : Option String :=
  match code.toList.head? with
  | some '1' => some "Missing Files"
  | some '2' => some "Scanner Error"
  | some '3' => some "Structure Error"
  | some '4' => some "Postfix Error"
  | some '5' => some "Configuration Error"
  | some '6' => some "UI Error"
  | some '9' => some "Runtime Error"
  | _ => none

/-- The catalogued codes with their texts. -/
def codeTexts : List (String × String) :=
  [("2000", "Unexpected character."),
    ("2001", "More than one '.' in one number."),
    ("2002", "Unexpected symbol."),
    ("2003", "Unexpected end of source code."),
    ("3000", "Unexpected empty body."),
    ("3001", "Term can't start with operator."),
    ("3002", "Unexpected node type: "),
    ("3003", "Unexpected end of term."),
    ("3004", "Unexpected operator."),
    ("4000", "Invalid postfix expression."),
    ("4001", "Unbalanced parenthesis."),
    ("5001", "Unknown parse strategy: "),
    ("5501", "Not all Settings could be saved: "),
    ("6002", "Parsing already Running!"),
    ("9999", "Unexpected Error: ")]

/-- The catalogued text of a code. -/
def codeText? (code : String) : Option String := codeTexts.lookup code

/-! ### Breakdowns -/

/-- What an absent text was needed for. -/
inductive TextUse where
  | length
  | symbols
  deriving DecidableEq

/-- An operation was given values that it is not meant for. -/
inductive Breakdown where
  /-- A number was to be read where no digit stands. -/
  | notNumeral
  /-- The precedence of an operator without one was asked for. -/
  | unlistedOperator (value : String)
  /-- There was no text to analyse. -/
  | absentText (use : TextUse)
  deriving DecidableEq

/-- The wording of a breakdown. -/
def Breakdown.message : Breakdown → String
  | .notNumeral => "[<class 'decimal.ConversionSyntax'>]"
  | .unlistedOperator value => Text.quote value
  | .absentText .length => "object of type 'NoneType' has no len()"
  | .absentText .symbols => "'NoneType' object is not iterable"

/-! ### Causes -/

/-- Why a text, a tree or a sequence of tokens was refused. -/
inductive Cause where
  /-- The cursor was to be moved beyond the text. -/
  | endOfText
  /-- The text ends inside a bracket pair. -/
  | missingClose
  /-- A closing bracket without an opening one, between the leaves of a nested tree. -/
  | strayClose
  /-- A character that may neither belong to an identifier nor follow it. -/
  | notInIdentifier (found : Char)
  /-- A second point in one numeral. -/
  | secondPoint
  /-- A character that begins no lexeme. -/
  | unknownSymbol (found : Char)
  /-- A bracket pair, or the whole text, without anything in it. -/
  | emptyBody
  /-- A term that begins with an operator. -/
  | leadingOperator
  /-- An operand of the named kind where an operator should stand. -/
  | misplacedOperand (kind : String)
  /-- A term that ends with an operator. -/
  | danglingOperator
  /-- An operator right behind another one. -/
  | doubledOperator
  /-- A numeral that is just a point. -/
  | lonePoint
  /-- A closing bracket token without an opening one. -/
  | unopened
  /-- An opening bracket token that is never closed. -/
  | unclosed
  /-- An operator of a postfix sequence with fewer than two operands before it. -/
  | missingOperands (operator : String)
  /-- A token of the named kind in a postfix sequence. -/
  | unknownTokenKind (kind : String)
  /-- A postfix sequence that leaves `count` trees instead of one. -/
  | notOneExpression (count : Nat)
  /-- There is no strategy of the given name. -/
  | unknownStrategy (name : String)
  /-- An operation broke down. -/
  | crash (breakdown : Breakdown)
  deriving DecidableEq

namespace Cause

/-- The kind of fault that a cause makes. -/
def kind : Cause → FaultKind
  | endOfText | missingClose => .unexpectedEndOfInput
  | strayClose | notInIdentifier _ => .unexpectedCharacter
  | secondPoint | lonePoint => .malformedNumber
  | unknownSymbol _ => .unexpectedSymbol
  | emptyBody => .emptyBody
  | leadingOperator => .leadingOperator
  | misplacedOperand _ => .unexpectedNodeType
  | danglingOperator => .unexpectedEndOfTerm
  | doubledOperator => .unexpectedOperator
  | unopened | unclosed => .unbalancedParenthesis
  | missingOperands _ | unknownTokenKind _ | notOneExpression _ => .invalidPostfix
  | unknownStrategy _ => .configuration
  | crash _ => .tree

/-- The code that a cause is reported with: the code of its kind, but an unknown strategy has one
of its own. -/
def code : Cause → String
  | unknownStrategy _ => "5001"
  | cause => cause.kind.code

/-- The wording of a cause. -/
def message : Cause → String
  | endOfText => "Unexpected end of source code."
  | missingClose => "Unexpected end of source code: missing ')'."
  | strayClose => "Unexpected character ')': missing '('."
  | notInIdentifier found => "Unexpected character '" ++ found.toString ++ "' in identifier."
  | secondPoint => "More than one '.' in one number."
  | unknownSymbol found => "Unexpected symbol '" ++ found.toString ++ "'."
  | emptyBody => "Unexpected empty body."
  | leadingOperator => "Term can't start with operator."
  | misplacedOperand kind => "Unexpected node type " ++ kind ++ "."
  | danglingOperator => "Unexpected end of term."
  | doubledOperator => "Unexpected operator."
  | lonePoint => "A '.' without digits is not a number."
  | unopened => "Missing '('."
  | unclosed => "Missing ')'."
  | missingOperands operator => "Operator '" ++ operator ++ "' needs two operands."
  | unknownTokenKind kind => "Unknown token type: " ++ kind
  | notOneExpression count => "Expected exactly one expression, found " ++ count.repr ++ "."
  | unknownStrategy name => "Unknown parse strategy: " ++ name
  | crash breakdown => "Unexpected crash: " ++ breakdown.message

end Cause

/-- A cause and the place it speaks of. -/
structure Fault where
  /-- Why. -/
  cause : Cause
  /-- Where: the number of characters before the place. -/
  position : Option Int
  deriving DecidableEq

/-- What an operation may end with instead of a result. -/
inductive Failure where
  | fault (fault : Fault)
  | breakdown (breakdown : Breakdown)
  deriving DecidableEq

/-! ### Diagnostics -/

/-- A reported fault. -/
structure Diagnostic where
  /-- The kind it is reported as. -/
  kind : FaultKind
  /-- The wording, if there is one. -/
  message : Option String
  /-- The code it is reported with. -/
  code : String
  /-- The text it was found in. -/
  equation : Option String
  /-- The place in that text. -/
  position : Option Int
  deriving DecidableEq

namespace Diagnostic

/-- A diagnostic of a kind, with the code of that kind unless another one is given. -/
def ofKind (kind : FaultKind) (message code equation : Option String) (position : Option Int) :
    Diagnostic :=
  ⟨kind, message, code.getD kind.code, equation, position⟩

/-- The diagnostic of a fault that was found in a text. -/
def ofFault (fault : Fault) (equation : Option String) : Diagnostic :=
  ⟨fault.cause.kind, fault.cause.message, fault.cause.code, equation, fault.position⟩

/-- The wording in a running text. -/
def messageText (d : Diagnostic) : String := d.message.getD "None"

/-- A caret under the given place. -/
def caret (position : Int) : String := String.ofList (List.replicate position.toNat ' ' ++ ['^'])

/-- Message, source line and caret line. The source line is the given text or else the
diagnostic's own; without a source line, or without a position, there is no caret. -/
def text (d : Diagnostic) (source : Option String) : String :=
  let headline := "Error " ++ d.code ++ ": " ++ d.messageText
  let lines := match source.or d.equation with
    | none => [headline]
    | some line => headline :: line :: (d.position.map caret).toList
  "\n".intercalate lines

/-- One line for a log: kind, quoted message, code and position. -/
def summary (d : Diagnostic) : String :=
  d.kind.name ++ "(" ++ (d.message.map Text.quote).getD "None" ++ ", code=" ++ Text.quote d.code ++
    ", position=" ++ (d.position.map Int.repr).getD "None" ++ ")"

end Diagnostic

end ArithTree
