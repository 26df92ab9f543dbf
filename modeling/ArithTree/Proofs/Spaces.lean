import ArithTree.Proofs.Binary.Composition
import ArithTree.Proofs.CommandLine.Console
import ArithTree.Proofs.Term.Insertion
import ArithTree.Proofs.Token.Insertion

/-!
# Spaces between lexemes

Spaces between the lexemes of a text do not matter. With one more of them the text is read into the
same tree, or into the same tokens, apart from the places behind the space. What is made of these
does not look at places, so the text is accepted as before and is shown as before.

* `Outcome.Alike` : outcomes that cannot be told apart but for the diagnostic of a fault.
* `analyse_term_alike`, `analyse_binary_alike` : one more space between lexemes.
* `insertSpace_unseen` : what is read of the text, and what a run for it writes.
-/

namespace ArithTree

open Text CommandLine

/-! ### Outcomes that look alike -/

/-- Outcomes with the same traced line that both have a fault, or both have a tree: trees that are
shown in the same way and, if they come with tokens, have the same line of them. -/
inductive Outcome.Alike : Outcome → Outcome → Prop where
  | fault {trace : Option String} (d d' : Diagnostic) : Alike ⟨trace, .error d⟩ ⟨trace, .error d'⟩
  | tree {trace : Option String} {parsed parsed' : Parsed} {shown : Display}
    (shows : parsed.Shows shown) (shows' : parsed'.Shows shown)
    (tokens : parsed'.tokens?.map Token.line = parsed.tokens?.map Token.line) :
    Alike ⟨trace, .ok parsed⟩ ⟨trace, .ok parsed'⟩

/-- Runs for texts whose outcomes look alike write the same to the standard output. -/
theorem runConsole_of_alike {strategy : Strategy} {wholeNumbers : Bool} {a b : String}
    (h : (analyse strategy wholeNumbers (some a)).Alike (analyse strategy wholeNumbers (some b)))
    (debug : Bool) :
    (runConsole debug strategy wholeNumbers b).out =
        (runConsole debug strategy wholeNumbers a).out ∧
      (runConsole debug strategy wholeNumbers b).ending =
        (runConsole debug strategy wholeNumbers a).ending := by
  unfold runConsole
  generalize analyse strategy wholeNumbers (some a) = outcome at h
  generalize analyse strategy wholeNumbers (some b) = outcome' at h
  cases h with
  | fault => simp only [and_self]
  | @tree trace parsed parsed' shown shows shows' tokens =>
    have hlines : parsed'.shownLines shown = parsed.shownLines shown := by
      have hpostfix := congrArg (Option.map ("Postfix: " ++ ·)) tokens
      rw [Option.map_map, Option.map_map] at hpostfix
      exact congrArg (fun line => shown.outline "  " :: line.toList) hpostfix
    simp only [shownTree_eq shows, shownTree_eq shows', hlines, and_self]

/-! ### Term trees -/

theorem Term.listed_of_scan {text : String} {tree : Term.Node} (h : Term.scan text = .ok tree) :
    Term.Listed tree.children := by
  obtain ⟨items, nodes, b, -, -, hnests, rfl⟩ := Term.scan_eq_ok_iff.1 h
  exact hnests.listed

theorem analyse_term_alike {text : String} {tree : Term.Node} {i : Nat}
    (h : Term.scan text = .ok tree)
    (hfree : ∀ leaf ∈ tree.leaves, ¬ leaf.Straddles text.toList i) (wholeNumbers : Bool) :
    (analyse .term wholeNumbers (some text)).Alike
      (analyse .term wholeNumbers (some (insertSpace i text))) := by
  have hmoved := Term.scan_insertSpace h hfree
  have hcheck : (tree.relocateBelow (moved i)).check = .ok () ↔ tree.check = .ok () := by
    rw [Term.check_eq_ok_iff _ (Term.listed_of_scan hmoved),
      Term.check_eq_ok_iff _ (Term.listed_of_scan h)]
    exact Term.alternates_relocate_iff
  simp only [analyse, analyseTerm, h, hmoved, Term.Node.text_relocateBelow]
  cases hresult : tree.check with
  | error fault =>
    cases hagain : (tree.relocateBelow (moved i)).check with
    | error fault' => exact .fault _ _
    | ok _ =>
      rw [hcheck.1 hagain] at hresult
      cases hresult
  | ok _ =>
    have hshows : render (tree.relocateBelow (moved i)) = .ok tree.display := by
      rw [(Term.ofText_of_scan hmoved).render_eq, Term.Node.display_relocateBelow]
    rw [hcheck.2 hresult]
    exact .tree (Term.ofText_of_scan h).render_eq hshows rfl

/-! ### Binary trees -/

theorem Token.line_makeRoom (i : Nat) (tokens : List Token) :
    Token.line (tokens.map (Token.makeRoom i)) = Token.line tokens := by
  rw [Token.line, Token.line, List.map_map]
  rfl

theorem Binary.ofPostfix_makeRoom {i : Nat} {tokens : List Token} {tree : Binary.Expression} :
    Binary.ofPostfix (tokens.map (Token.makeRoom i)) = .ok tree ↔
      Binary.ofPostfix tokens = .ok tree := by
  rw [Binary.ofPostfix_eq_ok_iff, Binary.ofPostfix_eq_ok_iff]
  exact Binary.foldTokens_move _

theorem analyse_binary_alike {text : String} {tokens : List Token} {i : Nat}
    (h : Token.lexemes text = .ok tokens) (hfree : ∀ token ∈ tokens, ¬ token.Straddles i) :
    (analyse .binary true (some text)).Alike
      (analyse .binary true (some (insertSpace i text))) := by
  have hmoved : postfixTokens true (insertSpace i text) =
      (postfixTokens true text).map (List.map (Token.makeRoom i)) :=
    Token.postfixOfLexemes_insertSpace h hfree
  simp only [analyse, analyseBinary, hmoved]
  cases postfixTokens true text with
  | error failure => exact .fault _ _
  | ok sent =>
    simp only [Except.map, Token.line_makeRoom]
    cases hsent : Binary.ofPostfix sent with
    | error fault =>
      cases hagain : Binary.ofPostfix (sent.map (Token.makeRoom i)) with
      | error fault' => exact .fault _ _
      | ok tree =>
        rw [Binary.ofPostfix_makeRoom, hsent] at hagain
        cases hagain
    | ok tree =>
      rw [Binary.ofPostfix_makeRoom.2 hsent]
      exact .tree (Binary.render_eq tree) (Binary.render_eq tree)
        (congrArg some (Token.line_makeRoom i sent))

/-! ### Texts -/

/-- **Spaces between lexemes do not matter.** A text with a tree has, with one more space that is
inside of no number and no identifier, the same tree, with the nodes behind the space one character
further on. A text with tokens has the same tokens in the same way. The analysis ends with a tree or
with a fault as before, the tree is shown as before, and a run for the text writes the same to the
standard output. -/
theorem insertSpace_unseen (text : String) (i : Nat) :
    (∀ tree, Term.scan text = .ok tree →
      (∀ leaf ∈ tree.leaves, ¬ leaf.Straddles text.toList i) →
      Term.scan (insertSpace i text) = .ok (tree.relocateBelow (moved i)) ∧
      ∀ wholeNumbers debug : Bool,
        (analyse .term wholeNumbers (some text)).Alike
          (analyse .term wholeNumbers (some (insertSpace i text))) ∧
        (runConsole debug .term wholeNumbers (insertSpace i text)).out =
          (runConsole debug .term wholeNumbers text).out ∧
        (runConsole debug .term wholeNumbers (insertSpace i text)).ending =
          (runConsole debug .term wholeNumbers text).ending) ∧
    ∀ tokens, Token.lexemes text = .ok tokens → (∀ token ∈ tokens, ¬ token.Straddles i) →
      Token.lexemes (insertSpace i text) = .ok (tokens.map (Token.makeRoom i)) ∧
      ∀ debug : Bool,
        (analyse .binary true (some text)).Alike
          (analyse .binary true (some (insertSpace i text))) ∧
        (runConsole debug .binary true (insertSpace i text)).out =
          (runConsole debug .binary true text).out ∧
        (runConsole debug .binary true (insertSpace i text)).ending =
          (runConsole debug .binary true text).ending := by
  constructor
  · intro tree h hfree
    refine ⟨Term.scan_insertSpace h hfree, fun wholeNumbers debug => ?_⟩
    have halike := analyse_term_alike h hfree wholeNumbers
    exact ⟨halike, runConsole_of_alike halike debug⟩
  · intro tokens h hfree
    refine ⟨Token.lexemes_insertSpace h hfree, fun debug => ?_⟩
    have halike := analyse_binary_alike h hfree
    exact ⟨halike, runConsole_of_alike halike debug⟩

/-- Between a numeral and an operator. -/
theorem insertSpace_unseen_product :
    let leaf (kind : Term.Kind) (payload : Term.Payload) (p : Int) := Term.Node.mk kind payload p []
    let twelve := Term.Payload.decimal ⟨12, 0⟩
    let three := Term.Payload.decimal ⟨3, 0⟩
    Term.scan "12*3" = .ok
        (.term 0 [leaf .number twelve 0, leaf .operator (.text "*") 2, leaf .number three 3]) ∧
      Term.scan "12 *3" = .ok
        (.term 0 [leaf .number twelve 0, leaf .operator (.text "*") 3, leaf .number three 4]) ∧
      Token.lexemes "12*3" = .ok
        [⟨"12", .number, some 0⟩, ⟨"*", .operator, some 2⟩, ⟨"3", .number, some 3⟩] ∧
      Token.lexemes "12 *3" = .ok
        [⟨"12", .number, some 0⟩, ⟨"*", .operator, some 3⟩, ⟨"3", .number, some 4⟩] ∧
      (runConsole false .binary true "12 *3").out = lines ["*\n  12\n  3", "Postfix: 12 3 *"] := by
  intro leaf twelve three
  have htwelve : Term.Reads ⟨0, ['1', '2'] ++ ['*', '3']⟩ (.number ⟨12, 0⟩) ⟨0 + 2, ['*', '3']⟩ :=
    .number (by decide) ⟨'1', rfl, rfl⟩ (endsNumeral_operator (by decide) _) rfl
  have hthree : Term.Reads ⟨3, ['3'] ++ []⟩ (.number ⟨3, 0⟩) ⟨3 + 1, []⟩ :=
    .number (by decide) ⟨'3', rfl, rfl⟩ endsNumeral_nil rfl
  have hlexes : Term.Lexes (.start "12*3")
      [⟨.number ⟨12, 0⟩, 0⟩, ⟨.operator '*', 2⟩, ⟨.number ⟨3, 0⟩, 3⟩] ⟨4, []⟩ :=
    .cons htwelve (.cons (.operator (by decide)) (.cons hthree (.nil _)))
  have hscan : Term.scan "12*3" = .ok
      (.term 0 [leaf .number twelve 0, leaf .operator (.text "*") 2, leaf .number three 3]) :=
    Term.scan_eq_ok_iff.2 ⟨_, _, _, hlexes, rfl, .leaf rfl (.leaf rfl (.leaf rfl .nil)), rfl⟩
  have hreads : Token.Reads 0 (['1', '2'] ++ ['*', '3']) _ :=
    .append (.numeral (by decide)) (Token.endsNumeral_of_isOperator rfl _)
      (.operator rfl (.numeral (by decide)))
  have hall : Token.Reads 0 "12*3".toList
      [⟨"12", .number, some 0⟩, ⟨"*", .operator, some 2⟩, ⟨"3", .number, some 3⟩] := hreads
  let tree : Binary.Expression := .branch "*" .operator (.leaf "12" .number) (.leaf "3" .number)
  let shown : Display := ⟨"*", .operator, [⟨"12", .number, []⟩, ⟨"3", .number, []⟩]⟩
  have hresult : (analyse .binary true (some "12*3")).result = .ok (.binary tree
      [⟨"12", .number, some 0⟩, ⟨"3", .number, some 3⟩, ⟨"*", .operator, some 2⟩]) := by
    rw [analyse, analyseBinary, postfixTokens, if_pos rfl, Token.postfixOfLexemes, hall.lexemes]
    rfl
  have hshown : render tree = .ok shown := Binary.render_eq tree
  have houtline : shown.outline "  " = "*\n  12\n  3" := by
    rw [Display.outline, Display.outlineLines_node]
    decide
  have hout : (runConsole false .binary true "12*3").out =
      lines ["*\n  12\n  3", "Postfix: 12 3 *"] := by
    rw [runConsole_of_ok hresult hshown, Parsed.shownLines, houtline]
    rfl
  obtain ⟨hterm, hbinary⟩ := insertSpace_unseen "12*3" 2
  have hleaves : (Term.Node.term 0 [leaf .number twelve 0, leaf .operator (.text "*") 2,
      leaf .number three 3]).leaves =
        [leaf .number twelve 0, leaf .operator (.text "*") 2, leaf .number three 3] :=
    Term.leavesOf_eq_self (by decide)
  obtain ⟨hagain, -⟩ := hterm _ hscan (by rw [hleaves]; decide)
  obtain ⟨hread, hruns⟩ := hbinary _ hall.lexemes (by decide)
  have hspace : insertSpace 2 "12*3" = "12 *3" := rfl
  rw [hspace] at hruns
  exact ⟨hscan, hagain, hall.lexemes, hread, (hruns false).2.1.trans hout⟩

end ArithTree
