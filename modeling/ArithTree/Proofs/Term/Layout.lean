import ArithTree.Proofs.Term.Nesting
import ArithTree.Proofs.Text.Brackets

/-!
# The layout of a tree

`LaidOut text p nodes q` says that the text between two places consists of the sources of a row of
trees and of spaces: a leaf has its own characters there, a Term a bracket pair around its children.

* `IsSource` : what the text has at the place of a leaf.
* `exists_laidOut_of_scan` : a text that has a tree is its layout.
-/

namespace ArithTree.Term

open Text

/-! ### Leaves -/

/-- The number of characters that a node has for itself: all of a leaf, the opening bracket of a
Term. -/
def sourceLength (text : List Char) (node : Node) : Nat :=
  match node.payload with
  | .absent => 1
  | .text s => s.length
  | .decimal _ => ((text.drop node.position.toNat).takeWhile isNumeralChar).length

/-- A leaf that stands for what the text has at its place. -/
inductive IsSource (text : List Char) : Node → Prop where
  /-- A number is written by the longest run of digits and points from its place on. -/
  | number {p : Nat} {d : Decimal}
    (value : Decimal.ofNumeral? ((text.drop p).takeWhile isNumeralChar) = some d) :
    IsSource text (.mk .number (.decimal d) p [])
  /-- An identifier is a run of letters that no letter stands before or behind. -/
  | identifier {p : Nat} {name : String} (nonempty : name ≠ "")
    (slice : (text.drop p).take name.length = name.toList) (letters : ∀ c ∈ name.toList, isLetter c)
    (left : ∀ c ∈ (text.take p).getLast?, ¬ isLetter c)
    (right : ∀ c ∈ (text.drop (p + name.length)).head?, ¬ isLetter c) :
    IsSource text (.mk .identifier (.text name) p [])
  /-- An operator is one character. -/
  | operator {p : Nat} {c : Char} (isOperator : c ∈ operatorSymbols)
    (slice : (text.drop p).take 1 = [c]) :
    IsSource text (.mk .operator (.text c.toString) p [])

/-! ### Rows -/

/-- The text between two places is a row of trees, with spaces between their lexemes. -/
inductive LaidOut (text : List Char) : Nat → List Node → Nat → Prop where
  | nil (p : Nat) : LaidOut text p [] p
  | space {p q : Nat} {nodes : List Node} (char : text[p]? = some ' ')
    (more : LaidOut text (p + 1) nodes q) : LaidOut text p nodes q
  | leaf {p q : Nat} {node : Node} {nodes : List Node} (place : node.position = p)
    (source : IsSource text node) (more : LaidOut text (p + sourceLength text node) nodes q) :
    LaidOut text p (node :: nodes) q
  | group {p q r : Nat} {children nodes : List Node} (opening : text[p]? = some '(')
    (inside : LaidOut text (p + 1) children q) (closing : text[q]? = some ')')
    (more : LaidOut text (q + 1) nodes r) : LaidOut text p (.term p children :: nodes) r

variable {text : List Char}

theorem LaidOut.append_spaces {p q r : Nat} {nodes : List Node} (h : LaidOut text p nodes q)
    (hspaces : LaidOut text q [] r) : LaidOut text p nodes r := by
  induction h with
  | nil => exact hspaces
  | space char _ ih => exact .space char (ih hspaces)
  | leaf place source _ ih => exact .leaf place source (ih hspaces)
  | group opening inside closing _ _ ih => exact .group opening inside closing (ih hspaces)

/-! ### Where a cursor stands -/

/-- The cursor stands in the text, and not between two letters. -/
structure Stands (text : List Char) (a : Cursor) : Prop where
  /-- The rest is what the text has from the place on. -/
  rest : a.rest = text.drop a.position
  /-- There is no letter on one of the two sides. -/
  breaks : (∀ c ∈ (text.take a.position).getLast?, ¬ isLetter c) ∨
    ∀ c ∈ a.rest.head?, ¬ isLetter c

theorem stands_start (text : String) : Stands text.toList (.start text) :=
  ⟨rfl, .inl (by simp [Cursor.start])⟩

/-- Behind a piece of the text the cursor stands in the text again. -/
theorem Stands.behind {p : Nat} {s rest : List Char} (h : Stands text ⟨p, s ++ rest⟩) (hs : s ≠ [])
    (hbreaks : (∀ c ∈ s, ¬ isLetter c) ∨ ∀ c ∈ rest.head?, ¬ isLetter c) :
    Stands text ⟨p + s.length, rest⟩ := by
  have hdrop : s ++ rest = text.drop p := h.rest
  have htake : text.take (p + s.length) = text.take p ++ s := by
    rw [List.take_add, ← hdrop, List.take_left]
  refine ⟨?_, hbreaks.imp_left fun hletters => ?_⟩
  · rw [← List.drop_drop, ← hdrop, List.drop_left]
  · rw [htake, List.getLast?_append, List.getLast?_eq_some_getLast hs, Option.some_or]
    intro c hc
    cases hc
    exact hletters _ (List.getLast_mem hs)

theorem Stands.char {p : Nat} {c : Char} {rest : List Char} (h : Stands text ⟨p, c :: rest⟩) :
    text[p]? = some c := by
  have hdrop : c :: rest = text.drop p := h.rest
  rw [← List.head?_drop, ← hdrop, List.head?_cons]

theorem Stands.next {p : Nat} {c : Char} {rest : List Char} (h : Stands text ⟨p, c :: rest⟩)
    (hc : isLetter c = false) : Stands text ⟨p + 1, rest⟩ :=
  Stands.behind (s := [c]) h (List.cons_ne_nil c []) (.inl (by simp [hc]))

theorem Stands.spaces {a b : Cursor} (hspaces : Spaces a b) (h : Stands text a) :
    Stands text b ∧ LaidOut text a.position [] b.position := by
  induction hspaces with
  | nil a => exact ⟨h, .nil _⟩
  | cons _ ih =>
    obtain ⟨hstands, hlaid⟩ := ih (h.next (not_isLetter_of_mem (by decide)))
    exact ⟨hstands, .space h.char hlaid⟩

theorem LaidOut.of_spaces {p q r : Nat} {nodes : List Node} (hspaces : LaidOut text p [] q)
    (h : LaidOut text q nodes r) : LaidOut text p nodes r := by
  generalize hnone : ([] : List Node) = none at hspaces
  induction hspaces with
  | nil => exact h
  | space char _ ih => exact .space char (ih h hnone)
  | leaf => cases hnone
  | group => cases hnone

/-- What stands at the place of a lexeme that is no bracket. -/
theorem Stands.source {a b : Cursor} {lexeme : Lexeme} {node : Node} (h : Stands text a)
    (hreads : Reads a lexeme b) (hleaf : Placed.leaf? ⟨lexeme, a.position⟩ = some node) :
    node.position = a.position ∧ IsSource text node ∧
      b.position = a.position + sourceLength text node ∧ Stands text b := by
  cases hreads with
  | opening => cases hleaf
  | closing => cases hleaf
  | @number p numeral rest d isNumeral head ends value =>
    cases hleaf
    have hdrop : numeral ++ rest = text.drop p := h.rest
    have hrun : (text.drop p).takeWhile isNumeralChar = numeral := by
      rw [← hdrop, takeWhile_numeral isNumeral.chars ends]
    have hne : numeral ≠ [] := by
      rintro rfl
      simp at head
    have hletters : ∀ c ∈ numeral, ¬ isLetter c := by
      intro c hc hletter
      rcases isNumeral.chars c hc with hdigit | rfl
      · exact not_isDigit_of_isLetter hletter hdigit
      · rw [not_isLetter_of_mem (by decide)] at hletter
        cases hletter
    refine ⟨rfl, .number (hrun ▸ value), ?_, h.behind hne (.inl hletters)⟩
    simp [sourceLength, Node.payload, Node.position, hrun]
  | @identifier p name rest nonempty letters ends =>
    cases hleaf
    have hdrop : name ++ rest = text.drop p := h.rest
    have hright : ∀ c ∈ rest.head?, ¬ isLetter c := by
      intro c hc hletter
      rcases ends c hc with rfl | rfl <;>
        rw [not_isLetter_of_mem (by decide)] at hletter <;> cases hletter
    have hleft : ∀ c ∈ (text.take p).getLast?, ¬ isLetter c := by
      refine h.breaks.resolve_right fun hhead => ?_
      obtain ⟨c, tail, rfl⟩ := List.exists_cons_of_ne_nil nonempty
      exact hhead c rfl (letters c List.mem_cons_self)
    have hbehind := h.behind nonempty (.inr hright)
    refine ⟨rfl, .identifier ?_ ?_ ?_ hleft ?_, ?_, hbehind⟩
    · simpa using nonempty
    · rw [← hdrop]
      simp
    · simpa using letters
    · have hrest : rest = text.drop (p + name.length) := hbehind.rest
      rw [String.length_ofList, ← hrest]
      exact hright
    · simp [sourceLength, Node.payload]
  | @operator p c rest isOperator =>
    cases hleaf
    have hdrop : c :: rest = text.drop p := h.rest
    have hletter : isLetter c = false :=
      Bool.eq_false_iff.2 (ne_of_mem_operatorSymbols isOperator).2.2
    refine ⟨rfl, .operator isOperator ?_, ?_, h.next hletter⟩
    · rw [← hdrop]
      rfl
    · simp [sourceLength, Node.payload]

/-! ### From lexemes to the layout -/

/-- Lexemes that nest into a row of trees lay this row out. -/
theorem Nests.laidOut {items : List Placed} {nodes : List Node} (h : Nests items nodes)
    {a c : Cursor} {more : List Placed} (hstands : Stands text a)
    (hlexes : Lexes a (items ++ more) c) :
    ∃ b, LaidOut text a.position nodes b.position ∧ Stands text b ∧ Lexes b more c := by
  induction h generalizing a c more with
  | nil => exact ⟨a, .nil _, hstands, hlexes⟩
  | @leaf item node items nodes isLeaf _ ih =>
    obtain ⟨lexeme, p⟩ := item
    obtain ⟨a', b, hspaces, hreads, rfl, hrest⟩ := hlexes.cons_inv
    obtain ⟨hstands', hbefore⟩ := hstands.spaces hspaces
    obtain ⟨hplace, hsource, hlength, hbehind⟩ := hstands'.source hreads isLeaf
    obtain ⟨d, hlaid, hend, hlast⟩ := ih hbehind hrest
    rw [hlength] at hlaid
    exact ⟨d, hbefore.of_spaces (.leaf hplace hsource hlaid), hend, hlast⟩
  | @group p q inner items children nodes _ _ ihInside ih =>
    rw [List.append_assoc, List.cons_append] at hlexes
    obtain ⟨a', b, hspaces, hreads, hp, hrest⟩ := hlexes.cons_inv
    obtain ⟨hstands', hbefore⟩ := hstands.spaces hspaces
    cases hreads
    cases hp
    obtain ⟨d, hinside, hend, hclosing⟩ :=
      ihInside (hstands'.next (not_isLetter_of_mem (by decide))) hrest
    -- The spaces before the closing bracket belong to the inside of the pair.
    obtain ⟨d', e, hbehind, hclose, hq, hlast⟩ := hclosing.cons_inv
    obtain ⟨hend', hspaces'⟩ := hend.spaces hbehind
    cases hclose
    cases hq
    obtain ⟨f, hmore, hstop, hlast'⟩ :=
      ih (hend'.next (not_isLetter_of_mem (by decide))) hlast
    refine ⟨f, hbefore.of_spaces ?_, hstop, hlast'⟩
    exact .group hstands'.char (hinside.append_spaces hspaces') hend'.char hmore

/-- **A text that has a tree is the layout of this tree.** -/
theorem exists_laidOut_of_scan {text : String} {tree : Node} (h : scan text = .ok tree) :
    ∃ nodes n, tree = .term 0 nodes ∧ LaidOut text.toList 0 nodes n ∧ text.length ≤ n := by
  obtain ⟨items, nodes, c, hlexes, hend, hnests, rfl⟩ := scan_eq_ok_iff.1 h
  rw [← List.append_nil items] at hlexes
  obtain ⟨b, hlaid, hstands, hlast⟩ := hnests.laidOut (stands_start text) hlexes
  obtain ⟨hstands', hbehind⟩ := hstands.spaces hlast.nil_inv
  refine ⟨nodes, _, rfl, hlaid.append_spaces hbehind, ?_⟩
  have hdrop := hstands'.rest
  rw [hend] at hdrop
  rw [← String.length_toList]
  exact List.drop_eq_nil_iff.1 hdrop.symm

end ArithTree.Term
