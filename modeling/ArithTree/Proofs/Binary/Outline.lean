import ArithTree.Proofs.CommandLine.Console
import ArithTree.Proofs.Display.Indentation

/-!
# The outline and the postfix line

The console shows a binary tree twice: as an outline, which is made of the tree by way of its
display tree, and as the line of the tokens that it was folded from. Both show the same tree. The
labels of the tree that the outline shows are, in postorder, the values of the tokens.

* `postorder_sketch` : what is shown of a tree has the labels of its listing.
* `values_of_ofPostfix` : a folded tree lists the values of its tokens.
* `exists_sketch_of_analyse` : the postfix line can be read from the outline.
-/

namespace ArithTree.Binary

open CommandLine (lines runConsole runConsole_of_ok)

/-- The labels of what is shown of a tree are the values of its nodes, in the same order. -/
theorem postorder_sketch (tree : Expression) :
    (display tree).sketch.postorder = (postorder tree).map Entry.value := by
  induction tree with
  | leaf value kind => rfl
  | branch value kind left right ihLeft ihRight =>
    have hbelow : Sketch.postorderAll (Display.sketchAll [display left, display right]) =
        (display left).sketch.postorder ++ (display right).sketch.postorder := by
      simp only [Display.sketchAll, Sketch.postorderAll, List.append_nil]
    rw [display, Display.sketch, Sketch.postorder, hbelow, ihLeft, ihRight, postorder,
      List.map_append, List.map_append]
    rfl
  | foreign operand => exact operand.elim

/-- A folded tree lists the values of the tokens that it was folded from. -/
theorem values_of_ofPostfix {tokens : List Token} {tree : Expression}
    (h : ofPostfix tokens = .ok tree) :
    (postorder tree).map Entry.value = tokens.map Token.value := by
  calc (postorder tree).map Entry.value
      = tree.toTokens.map Token.value := by rw [toTokens_eq, List.map_map]; rfl
    _ = tokens.map Token.value := by rw [toTokens_ofPostfix h, List.map_map]; rfl

/-- **The outline of a binary tree and its postfix line show the same tree.** The outline shows one
tree, whose labels are in postorder those of the postfix line, and it has one line for each
token. -/
theorem exists_sketch_of_analyse {wholeNumbers : Bool} {text : String} {parsed : Parsed}
    (h : (analyse .binary wholeNumbers (some text)).result = .ok parsed) :
    ∃ tree tokens shown sketch, parsed = .binary tree tokens ∧ render tree = .ok shown ∧
      (runConsole false .binary wholeNumbers text).out =
        lines [shown.outline "  ", "Postfix: " ++ Token.line tokens] ∧
      Sketch.ofOutline (shown.outline "  ") = [(0, sketch)] ∧
      " ".intercalate sketch.postorder = Token.line tokens ∧
      ((shown.outline "  ").toList.splitOn '\n').length = tokens.length := by
  obtain ⟨tokens, tree, hout, htree, rfl⟩ := analyse_binary_eq_ok_iff.1 h
  have hlabelled := (ofText_of_ofPostfix hout htree).labelled
  have hlabels : (display tree).sketch.postorder = tokens.map Token.value :=
    (postorder_sketch tree).trans (values_of_ofPostfix htree)
  refine ⟨tree, tokens, display tree, (display tree).sketch, rfl, render_eq tree, ?_,
    Display.ofOutline_outline hlabelled, ?_, ?_⟩
  · have hshows : (Parsed.binary tree tokens).Shows (display tree) := render_eq tree
    rw [runConsole_of_ok h hshows]
    rfl
  · rw [hlabels, Token.line]
  · rw [Display.length_splitOn_outline hlabelled, hlabels, List.length_map]

theorem exists_sketch_of_analyse_difference :
    ∃ tree tokens shown sketch,
      (analyse .binary false (some "9-(1-2)*3")).result = .ok (.binary tree tokens) ∧
      render tree = .ok shown ∧ Sketch.ofOutline (shown.outline "  ") = [(0, sketch)] ∧
      " ".intercalate sketch.postorder = "9 1 2 - 3 * -" ∧
      ((shown.outline "  ").toList.splitOn '\n').length = 7 := by
  have h : (analyse .binary false (some "9-(1-2)*3")).result = .ok (.binary
      (.branch "-" .operator (.leaf "9" .number)
        (.branch "*" .operator
          (.branch "-" .operator (.leaf "1" .number) (.leaf "2" .number)) (.leaf "3" .number)))
      [⟨"9", .number, some 0⟩, ⟨"1", .number, some 3⟩, ⟨"2", .number, some 5⟩,
        ⟨"-", .operator, some 4⟩, ⟨"3", .number, some 8⟩, ⟨"*", .operator, some 7⟩,
        ⟨"-", .operator, some 1⟩]) := rfl
  obtain ⟨tree, tokens, shown, sketch, hparsed, hshown, -, hsketch, hline, hlength⟩ :=
    exists_sketch_of_analyse h
  cases hparsed
  exact ⟨_, _, shown, sketch, h, hshown, hsketch, hline, hlength⟩

end ArithTree.Binary
