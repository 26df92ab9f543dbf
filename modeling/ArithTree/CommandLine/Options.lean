import ArithTree.Analysis
import ArithTree.Text.DecimalDigit

/-!
# Options of the command line

The words of a command line are an expression and options, in any order. An option may be shortened
as long as it stays the only one of that beginning, and its value may follow behind `=` or as the
next word. Behind the word `--` no word is an option. A word that begins with a minus sign is an
option unless it is just that sign, reads like a negative number or holds a space; then, and only
if it is no option of the program, it is an expression.

Words are sorted first, which finds the ambiguous ones, and then taken from left to right; the first
that cannot be taken ends the command line. Words that nothing takes are collected and refused in
the end.

* `Word.sort` : what a word is.
* `parse` : the options of a command line, or why there are none.
-/

namespace ArithTree.CommandLine

/-- The options of the program. -/
inductive Flag where
  | help
  | strategy
  | multiDigit
  | console
  deriving DecidableEq

namespace Flag

/-- All options in their order. -/
def all : List Flag := [help, strategy, multiDigit, console]

/-- The long name. -/
def longName : Flag → String
  | help => "--help"
  | strategy => "--strategy"
  | multiDigit => "--multi-digit"
  | console => "--console"

/-- The name in a message. -/
def messageName : Flag → String
  | help => "-h/--help"
  | flag => flag.longName

end Flag

/-- What the words of a command line ask for. -/
structure Options where
  /-- The text to analyse. -/
  expression : Option String
  /-- How to analyse it. -/
  strategy : Strategy
  /-- Read whole numbers, whatever the settings say. -/
  multiDigit : Bool
  /-- Do without a window. -/
  console : Bool

/-- Why a command line asks for nothing. -/
inductive Usage where
  /-- The help text was asked for. -/
  | help
  /-- A word that may be any of several options. -/
  | ambiguous (word : String) (names : List String)
  /-- An option without its value. -/
  | missingValue (flag : Flag)
  /-- A value of an option that has none. -/
  | ignoredValue (flag : Flag) (value : String)
  /-- A strategy that there is none of. -/
  | invalidChoice (value : String)
  /-- Words that nothing takes. -/
  | unrecognized (words : List String)

/-- The wording of a refusal. -/
def Usage.message : Usage → String
  | help => ""
  | ambiguous word names =>
    "ambiguous option: " ++ word ++ " could match " ++ ", ".intercalate names
  | missingValue flag => "argument " ++ flag.messageName ++ ": expected one argument"
  | ignoredValue flag value =>
    "argument " ++ flag.messageName ++ ": ignored explicit argument " ++ Text.quote value
  | invalidChoice value =>
    "argument " ++ Flag.messageName .strategy ++ ": invalid choice: " ++ Text.quote value ++
      " (choose from " ++ ", ".intercalate (strategyNames.map Text.quote) ++ ")"
  | unrecognized words => "unrecognized arguments: " ++ " ".intercalate words

/-! ### Sorting words -/

/-- What a word is. -/
inductive Word where
  /-- An expression or the value of an option. -/
  | plain (word : String)
  /-- The word `--`, behind which no word is an option. -/
  | separator
  /-- An option, with the value that the word holds behind `=`. -/
  | option (flag : Flag) (value : Option String)
  /-- The short name of the help option with more characters behind it, or with a value. -/
  | cluster (behind : List Char)
  /-- An option that there is none of. -/
  | unknown (word : String)

/-- Whether a word, without its minus sign, reads like a number: digits, or a point with digits
behind it and perhaps before it. A line feed at the end does not count. -/
def readsLikeNumber (word : List Char) : Bool :=
  let word := if word.getLast? = some '\n' then word.dropLast else word
  let whole := word.takeWhile Text.isDecimalDigit
  match word.dropWhile Text.isDecimalDigit with
  | [] => whole ≠ []
  | '.' :: fraction => fraction ≠ [] && fraction.all Text.isDecimalDigit
  | _ => false

/-- Splits a word at its first `=`. -/
def splitValue (word : List Char) : List Char × Option (List Char) :=
  (word.takeWhile (· ≠ '='),
    match word.dropWhile (· ≠ '=') with
    | [] => none
    | _ :: value => some value)

namespace Word

/-- A word that is no option of the program: an expression or an unknown option. -/
def sortOther (word : List Char) : Word :=
  if readsLikeNumber (word.drop 1) ∨ ' ' ∈ word then plain (String.ofList word)
  else unknown (String.ofList word)

/-- A word that begins with two minus signs. -/
def sortLong (word : List Char) : Except Usage Word :=
  let (name, value) := splitValue word
  let value := value.map String.ofList
  let exact := Flag.all.find? fun flag => flag.longName.toList = name
  let candidates := Flag.all.filter fun flag => name.isPrefixOf flag.longName.toList
  match exact, candidates with
  | some flag, _ => .ok (option flag value)
  | none, [] => .ok (sortOther word)
  | none, [flag] => .ok (option flag value)
  | none, flags => .error (.ambiguous (String.ofList word) (flags.map Flag.longName))

/-- What a word is where options may stand. -/
def sort (word : String) : Except Usage Word :=
  match word.toList with
  | ['-', '-'] => .ok separator
  | '-' :: '-' :: rest => sortLong ('-' :: '-' :: rest)
  | ['-', 'h'] => .ok (option .help none)
  | ['-', 'h', '='] => .ok (option .help (some ""))
  | '-' :: 'h' :: '=' :: rest => .ok (cluster rest)
  | '-' :: 'h' :: rest => .ok (cluster rest)
  | ['-'] => .ok (plain word)
  | '-' :: rest => .ok (sortOther ('-' :: rest))
  | _ => .ok (plain word)

/-- What the words of a command line are. -/
def sortAll : List String → Except Usage (List Word)
  | [] => .ok []
  | word :: words =>
    (sort word).bind fun
      | separator => .ok (separator :: words.map plain)
      | sorted => (sortAll words).map (sorted :: ·)

end Word

/-! ### Taking words -/

/-- What characters behind the short name of the help option lead to: more short names ask for help
again, and the first other character makes a value, with everything behind it, that is refused. -/
def takeCluster : List Char → Usage
  | [] => .help
  | 'h' :: rest => takeCluster rest
  | value => .ignoredValue .help (String.ofList value)

/-- The state between words: what was asked for, whether the expression has been passed, and the
words that nothing took, the last one first. -/
structure Taken where
  /-- What was asked for. -/
  options : Options
  /-- No word can be the expression any more. -/
  expressionPassed : Bool
  /-- The words that nothing took. -/
  leftOver : List String

/-- Before the first word. -/
def Taken.start : Taken := ⟨⟨none, .term, false, false⟩, false, []⟩

/-- With the given word as the expression. -/
def Taken.express (taken : Taken) (word : String) : Taken :=
  { taken with
    options := { taken.options with expression := some word }
    expressionPassed := true }

/-- With a word that nothing took. -/
def Taken.leave (taken : Taken) (word : String) : Taken :=
  { taken with leftOver := word :: taken.leftOver }

/-- The name of a strategy that no value is left of. -/
def noValue : String := "[]"

/-- With the strategy of a name. -/
def Taken.choose (taken : Taken) (name : String) : Except Usage Taken :=
  match Strategy.ofName name with
  | .unknown name _ => .error (.invalidChoice name)
  | strategy => .ok { taken with options := { taken.options with strategy } }

/-- With the strategy that is written behind `=`. The value `--` counts as a separator here as well,
which leaves no value. There is no strategy of that name, but it is left to the analysis to say
so. -/
def Taken.chooseWritten (taken : Taken) (value : String) : Except Usage Taken :=
  if value = "--" then
    .ok { taken with options := { taken.options with strategy := .ofName noValue } }
  else taken.choose value

/-- Takes the words one after the other. -/
def take (taken : Taken) : List Word → Except Usage Taken
  | [] => .ok taken
  -- the separator goes with the word before it, whether that is taken or left
  | .plain word :: .separator :: words =>
    if taken.expressionPassed then take ((taken.leave word).leave "--") words
    else take (taken.express word) words
  | .plain word :: words =>
    if taken.expressionPassed then take (taken.leave word) words
    else take (taken.express word) words
  | .separator :: words =>
    if taken.expressionPassed then take (taken.leave "--") words
    else match words with
      | .plain word :: words => take (taken.express word) words
      -- with no plain word behind it the separator takes the place of the expression
      | words => take { taken with expressionPassed := true } words
  | .unknown word :: words => take (taken.leave word) words
  | .cluster behind :: _ => .error (takeCluster behind)
  | .option flag (some value) :: words =>
    if flag = .strategy then (taken.chooseWritten value).bind fun taken => take taken words
    else .error (.ignoredValue flag value)
  | .option .help none :: _ => .error .help
  | .option .strategy none :: .plain value :: words =>
    (taken.choose value).bind fun taken => take taken words
  | .option .strategy none :: _ => .error (.missingValue .strategy)
  | .option .multiDigit none :: words =>
    take { taken with options := { taken.options with multiDigit := true } } words
  | .option .console none :: words =>
    take { taken with options := { taken.options with console := true } } words

/-- What a command line asks for. -/
def parse (words : List String) : Except Usage Options :=
  (Word.sortAll words).bind fun words =>
    (take .start words).bind fun taken =>
      match taken.leftOver with
      | [] => .ok taken.options
      | leftOver => .error (.unrecognized leftOver.reverse)

end ArithTree.CommandLine
