import ArithTree.Proofs.Binary.Views
import ArithTree.Proofs.Term.Line
import Mathlib.Tactic.TFAE

/-!
# Views of trees

A tree is seen on one line, as an outline and as a chart. None of these views loses anything but the
places of the nodes: two texts analysed in the same way have the same tree exactly if they have the
same line, the same outline and the same chart.

* `Parsed.Same` : trees that differ in the places of their nodes at most.
* `Parsed.Shows` : the display tree that outline and chart are made of.
* `views_tfae` : the views of two trees agree together.
-/

namespace ArithTree

/-- The trees are the same, the places of the nodes of term trees apart. -/
def Parsed.Same : Parsed → Parsed → Prop
  | term a, term b => a.unplaced = b.unplaced
  | binary a _, binary b _ => a.same b = true
  | _, _ => False

/-- The tree can be shown, by this display tree. -/
def Parsed.Shows (shown : Display) : Parsed → Prop
  | term tree => render tree = .ok shown
  | binary tree _ => render tree = .ok shown

/-- Outlines and charts tell display trees of texts. -/
theorem Display.Labelled.tfae {a b : Display} (ha : a.Labelled) (hb : b.Labelled) :
    [a = b, a.outline "  " = b.outline "  ", a.chart = b.chart].TFAE := by
  tfae_have 1 → 2 := fun h => by rw [h]
  tfae_have 1 → 3 := fun h => by rw [h]
  tfae_have 2 → 1 := Display.outline_injective ha hb
  tfae_have 3 → 1 := Display.chart_injective
  tfae_finish

theorem ofText_of_analyse_term {wholeNumbers : Bool} {text : String} {parsed : Parsed}
    (h : (analyse .term wholeNumbers (some text)).result = .ok parsed) :
    ∃ tree, parsed = .term tree ∧ Term.OfText tree := by
  obtain ⟨items, b, nodes, hlexes, hend, hnests, -, rfl⟩ := Term.analyse_eq_ok_iff_nests.1 h
  have hscan := Term.scan_eq_ok_iff.2 ⟨items, nodes, b, hlexes, hend, hnests, rfl⟩
  exact ⟨_, rfl, Term.ofText_of_scan hscan⟩

theorem ofText_of_analyse_binary {wholeNumbers : Bool} {text : String} {parsed : Parsed}
    (h : (analyse .binary wholeNumbers (some text)).result = .ok parsed) :
    ∃ tree tokens, parsed = .binary tree tokens ∧ Binary.OfText tree := by
  obtain ⟨sent, tree, hsent, htree, rfl⟩ := Binary.analyse_binary_eq_ok_iff.1 h
  exact ⟨tree, sent, rfl, Binary.ofText_of_ofPostfix hsent htree⟩

/-- **All views of a tree are faithful.** The trees of two texts that are accepted in the same way
can be shown, and if they agree on one line, as outlines, as charts or up to the places of their
nodes, they agree in all of these. -/
theorem views_tfae {strategy : Strategy} {wholeNumbers : Bool} {a b : String} {p q : Parsed}
    (hp : (analyse strategy wholeNumbers (some a)).result = .ok p)
    (hq : (analyse strategy wholeNumbers (some b)).result = .ok q) :
    ∃ shown shown' : Display, p.Shows shown ∧ q.Shows shown' ∧
      [p.Same q, p.treeText = q.treeText, shown.outline "  " = shown'.outline "  ",
        shown.chart = shown'.chart].TFAE := by
  cases strategy with
  | term =>
    obtain ⟨tree, rfl, htree⟩ := ofText_of_analyse_term hp
    obtain ⟨other, rfl, hother⟩ := ofText_of_analyse_term hq
    refine ⟨_, _, htree.render_eq, hother.render_eq, ?_⟩
    have hshown := htree.labelled.tfae hother.labelled
    tfae_have 1 ↔ 2 := htree.unplaced_eq_iff_text hother
    tfae_have 1 ↔ 3 := (htree.unplaced_eq_iff_display hother).trans (hshown.out 0 1)
    tfae_have 1 ↔ 4 := (htree.unplaced_eq_iff_display hother).trans (hshown.out 0 2)
    tfae_finish
  | binary =>
    obtain ⟨tree, tokens, rfl, htree⟩ := ofText_of_analyse_binary hp
    obtain ⟨other, others, rfl, hother⟩ := ofText_of_analyse_binary hq
    refine ⟨_, _, Binary.render_eq tree, Binary.render_eq other, ?_⟩
    have hshown := htree.labelled.tfae hother.labelled
    have hsame : tree.same other = true ↔ tree = other := Binary.same_iff
    tfae_have 1 ↔ 2 := hsame.trans (htree.eq_iff_text hother)
    tfae_have 1 ↔ 3 := (hsame.trans (htree.eq_iff_display hother)).trans (hshown.out 0 1)
    tfae_have 1 ↔ 4 := (hsame.trans (htree.eq_iff_display hother)).trans (hshown.out 0 2)
    tfae_finish
  | unknown name unlisted => simp [analyse, Outcome.failed] at hp

theorem views_tfae_product :
    ∃ p q, (analyse .binary false (some "(1+2)*3")).result = .ok p ∧
      (analyse .binary false (some "(1 + 2) * 3")).result = .ok q ∧
      ∃ shown shown' : Display, p.Shows shown ∧ q.Shows shown' ∧
        [p.Same q, p.treeText = q.treeText, shown.outline "  " = shown'.outline "  ",
          shown.chart = shown'.chart].TFAE := by
  have hp : (analyse .binary false (some "(1+2)*3")).result = .ok (.binary
      (.branch "*" .operator (.branch "+" .operator (.leaf "1" .number) (.leaf "2" .number))
        (.leaf "3" .number))
      [⟨"1", .number, some 1⟩, ⟨"2", .number, some 3⟩, ⟨"+", .operator, some 2⟩,
        ⟨"3", .number, some 6⟩, ⟨"*", .operator, some 5⟩]) := rfl
  have hq : (analyse .binary false (some "(1 + 2) * 3")).result = .ok (.binary
      (.branch "*" .operator (.branch "+" .operator (.leaf "1" .number) (.leaf "2" .number))
        (.leaf "3" .number))
      [⟨"1", .number, some 1⟩, ⟨"2", .number, some 5⟩, ⟨"+", .operator, some 3⟩,
        ⟨"3", .number, some 10⟩, ⟨"*", .operator, some 8⟩]) := rfl
  exact ⟨_, _, hp, hq, views_tfae hp hq⟩

end ArithTree
