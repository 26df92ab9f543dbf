import ArithTree.Binary.Fold
import ArithTree.Term.Check
import ArithTree.Term.Scan
import ArithTree.Token.Postfix

/-!
# Analysing a text

A text is analysed by one of two strategies: as a term tree, which is scanned and checked, or as a
binary tree, which is folded from the postfix order of its tokens. Every fault leaves as a
diagnostic that holds the text; a breakdown, and a text that is absent, are reported in the same
way. Half-way each strategy has something to trace: the scanned tree, or the tokens in postfix
order.

* `analyse` : the outcome of a text under a strategy.
-/

namespace ArithTree

/-- The names of the strategies. -/
def strategyNames : List String := ["term", "postfix"]

/-- How a text is analysed. -/
inductive Strategy where
  /-- As a term tree. -/
  | term
  /-- As a binary tree. -/
  | binary
  /-- There is no strategy of this name. -/
  | unknown (name : String) (unlisted : name ∉ strategyNames)
  deriving DecidableEq

namespace Strategy

/-- The name of a strategy. -/
def name : Strategy → String
  | term => "term"
  | binary => "postfix"
  | unknown name _ => name

/-- The strategy of a given name. -/
def ofName (name : String) : Strategy :=
  if h : name ∈ strategyNames then if name = "term" then term else binary
  else unknown name h

end Strategy

/-- What a text was analysed into. -/
inductive Parsed where
  | term (tree : Term.Node)
  /-- The tree and the tokens in postfix order that it was folded from. -/
  | binary (tree : Binary.Expression) (tokens : List Token)

namespace Parsed

/-- The name of the strategy that gives such trees. -/
def strategyName : Parsed → String
  | term _ => Strategy.term.name
  | binary _ _ => Strategy.binary.name

/-- The tree on one line. -/
def treeText : Parsed → String
  | term tree => tree.text
  | binary tree _ => tree.text

/-- The tokens in postfix order, if the strategy makes any. -/
def tokens? : Parsed → Option (List Token)
  | term _ => none
  | binary _ tokens => some tokens

/-- One line for a log: strategy, text and tree. -/
def summary (text : String) (parsed : Parsed) : String :=
  "ParseResult(" ++ Text.quote parsed.strategyName ++ ", " ++ Text.quote text ++ ", " ++
    parsed.treeText ++ ")"

end Parsed

/-- What an analysis ends with. -/
structure Outcome where
  /-- The line to trace, if the analysis came so far. -/
  trace : Option String
  /-- The tree, or the fault in its text. -/
  result : Except Diagnostic Parsed

/-- The diagnostic of a failure in a text. -/
def Failure.diagnostic (text : Option String) : Failure → Diagnostic
  | .fault f => .ofFault f text
  | .breakdown b => .ofFault ⟨.crash b, none⟩ text

/-- An analysis that ends with a failure before anything can be traced. -/
def Outcome.failed (text : Option String) (failure : Failure) : Outcome :=
  ⟨none, .error (failure.diagnostic text)⟩

/-- The analysis of a text as a term tree. -/
def analyseTerm (text : String) : Outcome :=
  match Term.scan text with
  | .error failure => .failed text failure
  | .ok tree =>
    ⟨some ("Term tree: " ++ tree.text),
      match tree.check with
      | .error fault => .error (.ofFault fault text)
      | .ok _ => .ok (.term tree)⟩

/-- The tokens of a text in postfix order, read lexeme by lexeme or symbol by symbol. -/
def postfixTokens (wholeNumbers : Bool) (text : String) : Except Failure (List Token) :=
  if wholeNumbers then Token.postfixOfLexemes text else Token.postfixOfSymbols text

/-- The analysis of a text as a binary tree. -/
def analyseBinary (wholeNumbers : Bool) (text : String) : Outcome :=
  match postfixTokens wholeNumbers text with
  | .error failure => .failed text failure
  | .ok tokens =>
    ⟨some ("Postfix: " ++ Token.line tokens),
      match Binary.ofPostfix tokens with
      | .error fault => .error (.ofFault fault text)
      | .ok tree => .ok (.binary tree tokens)⟩

/-- The analysis of a text under a strategy. -/
def analyse (strategy : Strategy) (wholeNumbers : Bool) (text : Option String) : Outcome :=
  match strategy, text with
  | .unknown name _, _ => .failed text (.fault ⟨.unknownStrategy name, none⟩)
  | .term, some text => analyseTerm text
  | .term, none => .failed none (.breakdown (.absentText .length))
  | .binary, some text => analyseBinary wholeNumbers text
  | .binary, none =>
    .failed none (.breakdown (.absentText (if wholeNumbers then .length else .symbols)))

end ArithTree
