import ArithTree.CommandLine.Files
import ArithTree.CommandLine.Options
import ArithTree.Display.Trees
import ArithTree.Settings.Listing
import ArithTree.Settings.Store

/-!
# The console program

The program prints the outline of a text, and for a binary tree its postfix line, or a diagnostic
with a caret. A switch of the settings adds a line about the settings and the line that the analysis
traces. Without a text, and unless the console is asked for, the program hands over to its window.

* `runConsole` : the run for one text.
* `runProgram` : the run for a command line and the stored settings.
* `launch` : the same with the check of the required files in front.
-/

namespace ArithTree.CommandLine

/-- How a run ends. -/
inductive Ending where
  /-- The command line ended the run with this exit code. -/
  | exit (code : Nat)
  /-- The run came to its end with this status. -/
  | status (code : Nat)
  /-- The settings could not be had. -/
  | failed (fault : Settings.Fault)
  /-- A node of the tree cannot be shown. -/
  | unshown (fault : UnknownKind)
  /-- The window takes over. -/
  | window

/-- What a run writes and how it ends. -/
structure Report where
  /-- What it writes to the standard output. -/
  out : String
  /-- What it writes to the error output. -/
  err : String
  /-- How it ends. -/
  ending : Ending

/-- The report with more output in front. -/
def Report.after (out : String) (report : Report) : Report :=
  { report with out := out ++ report.out }

/-- Lines with a line feed behind each. -/
def lines (texts : List String) : String := String.join (texts.map (· ++ "\n"))

/-! ### Texts -/

/-- How the program is called. -/
def usageText : String :=
  lines ["usage: main.py [-h] [--strategy \x7bterm,postfix\x7d] [--multi-digit] [--console]",
    "               [expression]"]

/-- The help text. -/
def helpText : String :=
  usageText ++ lines
    ["",
      "Parse arithmetic expressions into trees.",
      "",
      "positional arguments:",
      "  expression            expression to parse; omit to start the window",
      "",
      "options:",
      "  -h, --help            show this help message and exit",
      "  --strategy \x7bterm,postfix\x7d",
      "                        term: scanner + validator, postfix: shunting-yard +",
      "                        reducer",
      "  --multi-digit         read whole numbers in the postfix strategy",
      "  --console             stay on the console; without an expression the",
      "                        reference expression is parsed"]

/-- The text that is analysed on the console if none is given. -/
def referenceExpression : String := "1 + ( 2 + sdsds + asd )"

/-- The report of a command line that asks for nothing. -/
def Usage.report : Usage → Report
  | .help => ⟨helpText, "", .exit 0⟩
  | usage => ⟨"", usageText ++ lines ["main.py: error: " ++ usage.message], .exit 2⟩

/-! ### Runs -/

/-- The lines that show a tree. -/
def shownTree : Parsed → Except UnknownKind (List String)
  | .term tree => (render tree).map fun display => [display.outline "  "]
  | .binary tree tokens =>
    match render tree with
    | .ok display => .ok [display.outline "  ", "Postfix: " ++ Token.line tokens]
    | .error operand => nomatch operand

/-- The run for one text; with `debug`, the line that the analysis traces comes first. -/
def runConsole (debug : Bool) (strategy : Strategy) (wholeNumbers : Bool) (text : String) :
    Report :=
  let outcome := analyse strategy wholeNumbers text
  let trace := lines (if debug then outcome.trace.toList else [])
  match outcome.result with
  | .error diagnostic => ⟨trace, lines [diagnostic.text none], .status 1⟩
  | .ok parsed =>
    match shownTree parsed with
    | .error fault => ⟨trace, "", .unshown fault⟩
    | .ok shown => ⟨trace ++ lines shown, "", .status 0⟩

/-- The run for what a command line asks for, with the given settings. -/
def runOptions (options : Options) (settings : Settings.Table Empty) : Report :=
  let debug := settings.isOn "debug"
  let announcement := if debug then lines ["Config loaded: " ++ settings.shown] else ""
  if options.expression = none ∧ options.console = false then ⟨announcement, "", .window⟩
  else
    (runConsole debug options.strategy
      (options.multiDigit || settings.isOn "multi_digit_tokens")
      (options.expression.getD referenceExpression)).after announcement

/-- The run for a command line and the stored settings. -/
def runProgram (words : List String) (settings : Settings.Slot) : Report :=
  match parse words with
  | .error usage => usage.report
  | .ok options =>
    match settings.table with
    | .error fault => ⟨"", "", .failed fault⟩
    | .ok table => runOptions options table

/-- The check of the required files among those that are present. -/
def checkFiles (present : List String) : Option Report :=
  (missingMessage? present).map fun message => ⟨message, "", .exit 1⟩

/-- The run of the program as a whole. Without any words, and unless it is bundled, it checks first
that the files it needs are present. -/
def launch (bundled : Bool) (present : List String) (words : List String)
    (settings : Settings.Slot) : Report :=
  if bundled = false ∧ words = [] then
    ((checkFiles present).getD (runProgram words settings)).after
      (lines ["Developer Mode: Checking file paths..."])
  else runProgram words settings

end ArithTree.CommandLine
