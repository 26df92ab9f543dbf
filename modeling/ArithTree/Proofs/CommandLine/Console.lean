import ArithTree.CommandLine.Run
import ArithTree.Proofs.Strategies
import ArithTree.Proofs.Views

/-!
# What a run on the console writes

Only the analysis of a text may be refused: every tree that it ends with can be shown. So a run for
a text always comes to its end, and it writes either the tree to the standard output or the report
of the fault to the error output, never to both. Tracing puts one line in front of what is written
to the standard output, as soon as there is something to trace, and changes nothing else.

* `Parsed.shownLines` : the lines that show a tree.
* `Traces` : what there is to trace.
* `runConsole_cases` : what a run without tracing writes.
* `runConsole_true` : what tracing adds.
* `runConsole_exclusive` : the two outputs, the status and the traced line of any text.
-/

namespace ArithTree

/-! ### Shown trees -/

/-- The lines that show a tree with a given display tree: its outline and, if the tree was folded
from tokens, their postfix line. -/
def Parsed.shownLines (shown : Display) (parsed : Parsed) : List String :=
  shown.outline "  " :: (parsed.tokens?.map fun tokens => "Postfix: " ++ Token.line tokens).toList

/-- The tree of a text can be shown. -/
theorem exists_shows_of_analyse {strategy : Strategy} {wholeNumbers : Bool} {text : String}
    {parsed : Parsed} (h : (analyse strategy wholeNumbers (some text)).result = .ok parsed) :
    ∃ shown : Display, parsed.Shows shown := by
  cases strategy with
  | term =>
    obtain ⟨tree, rfl, htree⟩ := ofText_of_analyse_term h
    exact ⟨_, htree.render_eq⟩
  | binary =>
    obtain ⟨tree, tokens, rfl, -⟩ := ofText_of_analyse_binary h
    exact ⟨_, Binary.render_eq tree⟩
  | unknown name unlisted => simp [analyse, Outcome.failed] at h

/-- A tree comes with tokens under the strategy that folds them. -/
theorem isSome_tokens?_iff {strategy : Strategy} {wholeNumbers : Bool} {text : String}
    {parsed : Parsed} (h : (analyse strategy wholeNumbers (some text)).result = .ok parsed) :
    parsed.tokens?.isSome ↔ strategy = .binary := by
  cases strategy with
  | term =>
    obtain ⟨tree, rfl, -⟩ := ofText_of_analyse_term h
    simp [Parsed.tokens?]
  | binary =>
    obtain ⟨tree, tokens, rfl, -⟩ := ofText_of_analyse_binary h
    simp [Parsed.tokens?]
  | unknown name unlisted => simp [analyse, Outcome.failed] at h

/-! ### Traced lines -/

/-- The line that is traced in the analysis of a text: the scanned tree, whatever the check says of
it, or the tokens in postfix order, whatever becomes of them when they are folded. -/
inductive Traces (wholeNumbers : Bool) (text : String) : Strategy → String → Prop where
  | term {tree : Term.Node} (scanned : Term.scan text = .ok tree) :
    Traces wholeNumbers text .term ("Term tree: " ++ tree.text)
  | binary {tokens : List Token} (converted : postfixTokens wholeNumbers text = .ok tokens) :
    Traces wholeNumbers text .binary ("Postfix: " ++ Token.line tokens)

theorem trace_eq_some_iff {strategy : Strategy} {wholeNumbers : Bool} {text line : String} :
    (analyse strategy wholeNumbers (some text)).trace = some line ↔
      Traces wholeNumbers text strategy line := by
  constructor
  · intro h
    cases strategy with
    | term =>
      simp only [analyse, analyseTerm] at h
      cases hscan : Term.scan text with
      | error failure =>
        rw [hscan] at h
        cases h
      | ok tree =>
        rw [hscan] at h
        cases h
        exact .term hscan
    | binary =>
      simp only [analyse, analyseBinary] at h
      cases hout : postfixTokens wholeNumbers text with
      | error failure =>
        rw [hout] at h
        cases h
      | ok tokens =>
        rw [hout] at h
        cases h
        exact .binary hout
    | unknown name unlisted => cases h
  · intro h
    cases h with
    | term scanned => simp only [analyse, analyseTerm, scanned]
    | binary converted => simp only [analyse, analyseBinary, converted]

/-- A row of texts has a character in it only if a text or what stands between them has. -/
theorem not_mem_intercalate {c : Char} {between : String} {texts : List String}
    (hbetween : c ∉ between.toList) (htexts : ∀ text ∈ texts, c ∉ text.toList) :
    c ∉ (between.intercalate texts).toList := by
  match texts with
  | [] => simp
  | [text] => simpa using htexts
  | text :: next :: texts =>
    obtain ⟨htext, hrest⟩ := List.forall_mem_cons.1 htexts
    rw [String.intercalate_cons_cons, String.toList_append, String.toList_append,
      List.mem_append, List.mem_append, not_or, not_or]
    exact ⟨⟨htext, hbetween⟩, not_mem_intercalate hbetween hrest⟩

namespace Term.OfText

variable {node : Term.Node}

theorem lineFeed_not_mem_leaf (h : OfText node) (hleaf : node.kind ≠ .term) :
    '\n' ∉ node.line.toList := by
  have htitle : ∀ kind ∈ Node.kinds, '\n' ∉ (Node.title kind).toList := by decide
  have hlabel := (h.isLabel_leaf hleaf).not_mem_blank '\n' (by simp)
  rw [Node.toList_line h.kind_mem, Node.body, if_neg (by simpa [Node.isTerm] using hleaf)]
  simpa using ⟨htitle _ h.kind_mem, hlabel⟩

/-- The tree of a text is written on a single line. -/
theorem lineFeed_not_mem_line (h : OfText node) : '\n' ∉ node.line.toList := by
  induction h with
  | number d p => exact lineFeed_not_mem_leaf (.number d p) (by simp [Node.kind])
  | identifier p nonempty letters =>
    exact lineFeed_not_mem_leaf (.identifier p nonempty letters) (by simp [Node.kind])
  | operator p isOperator =>
    exact lineFeed_not_mem_leaf (.operator p isOperator) (by simp [Node.kind])
  | @group p children below ih =>
    have hrow : '\n' ∉ (", ".intercalate (children.map Node.line)).toList :=
      not_mem_intercalate (by decide) (List.forall_mem_map.2 ih)
    rw [Node.line_term rfl]
    simpa [Node.term, Node.children] using hrow

end Term.OfText

/-- Tokens of texts are written on a single line. -/
theorem lineFeed_not_mem_line_of_postfixTokens {wholeNumbers : Bool} {text : String}
    {tokens : List Token} (h : postfixTokens wholeNumbers text = .ok tokens) :
    '\n' ∉ (Token.line tokens).toList := by
  have hoperators : ∀ value ∈ Binary.operatorValues, '\n' ∉ value.toList := by decide
  refine not_mem_intercalate (by decide) (List.forall_mem_map.2 fun token htoken => ?_)
  obtain ⟨hnumber, hoperator⟩ := Binary.value_of_postfixTokens h token htoken
  rcases Binary.kinds_of_postfixTokens h token htoken with hkind | hkind
  · exact (IsLabel.of_isNumeral (hnumber hkind)).not_mem_blank '\n' (by simp)
  · exact hoperators _ (hoperator hkind)

theorem Traces.lineFeed_not_mem {strategy : Strategy} {wholeNumbers : Bool} {text line : String}
    (h : Traces wholeNumbers text strategy line) : '\n' ∉ line.toList := by
  cases h with
  | @term tree scanned =>
    have htree := (Term.ofText_of_scan scanned).lineFeed_not_mem_line
    simpa [Term.Node.text_eq_line] using htree
  | @binary tokens converted =>
    have htokens := lineFeed_not_mem_line_of_postfixTokens converted
    simpa using htokens

/-! ### Runs -/

namespace CommandLine

theorem shownTree_eq {parsed : Parsed} {shown : Display} (h : parsed.Shows shown) :
    shownTree parsed = .ok (parsed.shownLines shown) := by
  cases parsed with
  | term tree =>
    have hrender : render tree = .ok shown := h
    rw [shownTree, hrender]
    rfl
  | binary tree tokens =>
    have hrender : render tree = .ok shown := h
    simp only [shownTree, hrender]
    rfl

/-- Tracing puts a line in front of what is written and changes nothing else. -/
theorem runConsole_true (strategy : Strategy) (wholeNumbers : Bool) (text : String) :
    runConsole true strategy wholeNumbers text =
      (runConsole false strategy wholeNumbers text).after
        (lines (analyse strategy wholeNumbers (some text)).trace.toList) := by
  have hnone : lines [] = "" := rfl
  simp only [runConsole, if_true, Bool.false_eq_true, if_false, hnone]
  cases (analyse strategy wholeNumbers (some text)).result with
  | error d => simp [Report.after]
  | ok parsed =>
    cases hshown : shownTree parsed with
    | error fault => simp [Report.after, hshown]
    | ok shown => simp [Report.after, hshown]

variable {strategy : Strategy} {wholeNumbers : Bool} {text : String}

theorem runConsole_of_ok {parsed : Parsed} {shown : Display}
    (h : (analyse strategy wholeNumbers (some text)).result = .ok parsed)
    (hshown : parsed.Shows shown) :
    runConsole false strategy wholeNumbers text =
      ⟨lines (parsed.shownLines shown), "", .status 0⟩ := by
  simp only [runConsole, h, shownTree_eq hshown]
  rfl

theorem runConsole_of_error {d : Diagnostic}
    (h : (analyse strategy wholeNumbers (some text)).result = .error d) :
    runConsole false strategy wholeNumbers text = ⟨"", lines [d.text none], .status 1⟩ := by
  simp only [runConsole, h]
  rfl

/-- Without tracing, a run writes a tree or the report of a fault. -/
theorem runConsole_cases (strategy : Strategy) (wholeNumbers : Bool) (text : String) :
    (∃ parsed shown, (analyse strategy wholeNumbers (some text)).result = .ok parsed ∧
      parsed.Shows shown ∧ (parsed.tokens?.isSome ↔ strategy = .binary) ∧
      runConsole false strategy wholeNumbers text =
        ⟨lines (parsed.shownLines shown), "", .status 0⟩) ∨
    ∃ d, (analyse strategy wholeNumbers (some text)).result = .error d ∧
      runConsole false strategy wholeNumbers text = ⟨"", lines [d.text none], .status 1⟩ := by
  cases h : (analyse strategy wholeNumbers (some text)).result with
  | ok parsed =>
    obtain ⟨shown, hshown⟩ := exists_shows_of_analyse h
    exact .inl ⟨parsed, shown, rfl, hshown, isSome_tokens?_iff h, runConsole_of_ok h hshown⟩
  | error d => exact .inr ⟨d, rfl, runConsole_of_error h⟩

/-- **A run for a text comes to its end, and writes to one of its outputs.** Without tracing it
writes the tree to the standard output, with status 0, or the report of the fault to the error
output, with status 1, as the analysis has a tree or a fault. With tracing there is at most one line
more, at the beginning of the standard output, and it is there exactly if the analysis came as far
as having something to trace. -/
theorem runConsole_exclusive (strategy : Strategy) (wholeNumbers : Bool) (text : String) :
    let result := (analyse strategy wholeNumbers (some text)).result
    let quiet := runConsole false strategy wholeNumbers text
    let traced := runConsole true strategy wholeNumbers text
    (quiet.ending = .status 0 ↔ ∃ parsed, result = .ok parsed) ∧
    (quiet.ending = .status 1 ↔ ∃ d, result = .error d) ∧
    ((∃ parsed shown, result = .ok parsed ∧ parsed.Shows shown ∧
        (parsed.tokens?.isSome ↔ strategy = .binary) ∧
        quiet = ⟨lines (parsed.shownLines shown), "", .status 0⟩) ∨
      ∃ d, result = .error d ∧ quiet = ⟨"", lines [d.text none], .status 1⟩) ∧
    ∃ trace : Option String,
      (∀ line, trace = some line ↔ Traces wholeNumbers text strategy line) ∧
      (∀ line ∈ trace, '\n' ∉ line.toList) ∧
      traced.out = lines trace.toList ++ quiet.out ∧ traced.err = quiet.err ∧
      traced.ending = quiet.ending := by
  intro result quiet traced
  have hcases := runConsole_cases strategy wholeNumbers text
  refine ⟨?_, ?_, hcases, _, fun line => trace_eq_some_iff, fun line hline => ?_, ?_⟩
  · rcases hcases with ⟨parsed, shown, hresult, -, -, hquiet⟩ | ⟨d, hresult, hquiet⟩
    · simp [quiet, result, hresult, hquiet]
    · simp [quiet, result, hresult, hquiet]
  · rcases hcases with ⟨parsed, shown, hresult, -, -, hquiet⟩ | ⟨d, hresult, hquiet⟩
    · simp [quiet, result, hresult, hquiet]
    · simp [quiet, result, hresult, hquiet]
  · exact (trace_eq_some_iff.1 hline).lineFeed_not_mem
  · have htraced : traced = quiet.after _ := runConsole_true strategy wholeNumbers text
    rw [htraced]
    exact ⟨rfl, rfl, rfl⟩

/-- Tokens in postfix order are traced, also if they are refused when they are folded. -/
theorem runConsole_exclusive_starved :
    let traced := runConsole true .binary false "1+"
    traced.out = lines ["Postfix: 1 +"] ∧ traced.ending = .status 1 ∧
      traced.err = lines ["Error 4000: Operator '+' needs two operands.\n1+\n ^"] := by
  intro traced
  have hresult : (analyse .binary false (some "1+")).result =
      .error (.ofFault ⟨.missingOperands "+", some 1⟩ (some "1+")) := rfl
  have hpostfix : postfixTokens false "1+" =
      .ok [⟨"1", .number, some 0⟩, ⟨"+", .operator, some 1⟩] := rfl
  obtain ⟨-, -, hquiet, trace, htrace, -, hout, herr, hending⟩ :=
    runConsole_exclusive .binary false "1+"
  obtain ⟨parsed, shown, hok, -⟩ | ⟨d, hd, hquiet⟩ := hquiet
  · rw [hresult] at hok
    cases hok
  · rw [hresult] at hd
    cases hd
    rw [hquiet] at hout herr hending
    rw [(htrace _).2 (.binary hpostfix)] at hout
    exact ⟨hout, hending, herr⟩

end CommandLine

end ArithTree
