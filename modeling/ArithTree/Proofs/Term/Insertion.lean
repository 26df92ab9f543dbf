import ArithTree.Proofs.Term.Line
import ArithTree.Proofs.Term.Prefix
import ArithTree.Proofs.Term.Shift
import ArithTree.Proofs.Text.Insertion

/-!
# Spaces in the text of a term tree

One more space between the lexemes of a text is skipped like any other. So the text has the same
lexemes, and they nest into the same tree, with the nodes behind the space one character further on.

* `Node.relocate` : a tree with its nodes at other places. What is shown of it is the same, and its
  Terms alternate as before.
* `Lexes.withSpace` : a text with one more space has the same lexemes.
* `scan_insertSpace` : and the same tree.
-/

namespace ArithTree.Term

open Text

/-! ### Trees at other places -/

namespace Node

variable {α : Type}

/-- The tree with its nodes at other places. -/
def relocate (f : Int → Int) : Node → Node :=
  fold fun kind payload position children => mk kind payload (f position) children

/-- The tree with the nodes below its root at other places. -/
def relocateBelow (f : Int → Int) (root : Node) : Node :=
  mk root.kind root.payload root.position (root.children.map (relocate f))

theorem relocate_eq (f : Int → Int) (node : Node) : node.relocate f =
    mk node.kind node.payload (f node.position) (node.children.map (relocate f)) := by
  obtain ⟨kind, payload, position, children⟩ := node
  rw [relocate, fold, foldAll_eq]
  rfl

theorem kind_relocate (f : Int → Int) (node : Node) : (node.relocate f).kind = node.kind := by
  rw [relocate_eq]
  rfl

theorem children_relocate (f : Int → Int) (node : Node) :
    (node.relocate f).children = node.children.map (relocate f) := by
  rw [relocate_eq]
  rfl

mutual

/-- What is made from kinds and payloads alone is the same at other places. -/
theorem fold_relocate (f : Int → Int) (g : Kind → Payload → List α → α) (node : Node) :
    (node.relocate f).fold (fun kind payload _ => g kind payload) =
      node.fold fun kind payload _ => g kind payload := by
  obtain ⟨kind, payload, position, children⟩ := node
  rw [relocate, fold, fold, fold, foldAll_relocate]

theorem foldAll_relocate (f : Int → Int) (g : Kind → Payload → List α → α) (nodes : List Node) :
    foldAll (fun kind payload _ => g kind payload)
        (foldAll (fun kind payload p children => mk kind payload (f p) children) nodes) =
      foldAll (fun kind payload _ => g kind payload) nodes := by
  match nodes with
  | [] => rfl
  | node :: nodes =>
    have hnode := fold_relocate f g node
    rw [relocate] at hnode
    rw [foldAll, foldAll, foldAll, foldAll_relocate, hnode]

end

theorem fold_relocateBelow (f : Int → Int) (g : Kind → Payload → List α → α) (root : Node) :
    (root.relocateBelow f).fold (fun kind payload _ => g kind payload) =
      root.fold fun kind payload _ => g kind payload := by
  obtain ⟨kind, payload, position, children⟩ := root
  have hchildren : (children.map (relocate f)).map (fold fun kind payload _ => g kind payload) =
      children.map (fold fun kind payload _ => g kind payload) := by
    rw [List.map_map]
    exact List.map_congr_left fun child _ => fold_relocate f g child
  rw [relocateBelow, fold, fold, foldAll_eq, foldAll_eq]
  exact congrArg (g kind payload) hchildren

theorem display_relocateBelow (f : Int → Int) (root : Node) :
    (root.relocateBelow f).display = root.display :=
  fold_relocateBelow f _ root

theorem text_relocateBelow (f : Int → Int) (root : Node) :
    (root.relocateBelow f).text = root.text := by
  rw [text_eq_line, text_eq_line]
  exact fold_relocateBelow f _ root

end Node

/-- Operands and operators alternate at other places as they did. -/
theorem alternates_relocate_iff {f : Int → Int} {turn : Turn} {nodes : List Node} :
    Alternates turn (nodes.map (Node.relocate f)) ↔ Alternates turn nodes := by
  constructor
  · intro h
    generalize hmoved : nodes.map (Node.relocate f) = others at h
    induction h generalizing nodes with
    | done =>
      rw [List.map_eq_nil_iff.1 hmoved]
      exact .done
    | operator kind _ ih =>
      obtain ⟨node, nodes, rfl, rfl, hrest⟩ := List.map_eq_cons_iff.1 hmoved
      exact .operator (Node.kind_relocate f node ▸ kind) (ih hrest)
    | leaf kind _ ih =>
      obtain ⟨node, nodes, rfl, rfl, hrest⟩ := List.map_eq_cons_iff.1 hmoved
      exact .leaf (Node.kind_relocate f node ▸ kind) (ih hrest)
    | group kind _ _ ihInside ih =>
      obtain ⟨node, nodes, rfl, rfl, hrest⟩ := List.map_eq_cons_iff.1 hmoved
      exact .group (Node.kind_relocate f node ▸ kind)
        (ihInside (Node.children_relocate f node).symm) (ih hrest)
  · intro h
    induction h with
    | done => exact .done
    | operator kind _ ih => exact .operator ((Node.kind_relocate f _).trans kind) ih
    | leaf kind _ ih => exact .leaf (by rwa [Node.kind_relocate]) ih
    | group kind _ _ ihInside ih =>
      exact .group ((Node.kind_relocate f _).trans kind)
        (by rwa [Node.children_relocate]) ih

/-! ### Lexemes at other places -/

/-- The lexeme behind one more space at `i`. -/
def Placed.move (i : Nat) (item : Placed) : Placed :=
  { item with position := if i ≤ item.position then item.position + 1 else item.position }

theorem natCast_position_move (i : Nat) (item : Placed) :
    ((item.move i).position : Int) = moved i item.position := by
  simp only [Placed.move, moved, Int.ofNat_le]
  split <;> simp

theorem leaf?_move {item : Placed} {leaf : Node} (h : item.leaf? = some leaf) (i : Nat) :
    (item.move i).leaf? = some (leaf.relocate (moved i)) := by
  have hposition := natCast_position_move i item
  obtain ⟨lexeme, p⟩ := item
  cases lexeme with
  | opening | closing => cases h
  | number | identifier | operator =>
    cases h
    rw [Node.relocate_eq]
    simp only [Placed.leaf?, Placed.move] at hposition ⊢
    rw [hposition]
    rfl

/-- Lexemes that nest into trees nest into the same trees behind one more space. -/
theorem Nests.move {items : List Placed} {nodes : List Node} (h : Nests items nodes) (i : Nat) :
    Nests (items.map (Placed.move i)) (nodes.map (Node.relocate (moved i))) := by
  induction h with
  | nil => exact .nil
  | leaf isLeaf _ ih => exact .leaf (leaf?_move isLeaf i) ih
  | @group p q inner items children nodes _ _ ihInside ih =>
    have hp := natCast_position_move i ⟨.opening, p⟩
    have hterm : (Node.term p children).relocate (moved i) =
        .term (Placed.move i ⟨.opening, p⟩).position (children.map (Node.relocate (moved i))) := by
      rw [Node.relocate_eq, hp]
      rfl
    rw [List.map_append, List.map_cons, List.map_cons, List.map_cons, hterm]
    exact .group ihInside ih

/-! ### The reader -/

/-- A place is inside of a number or an identifier: characters of it stand on both sides. -/
def Node.Straddles (text : List Char) (i : Nat) (leaf : Node) : Prop :=
  (leaf.kind = .number ∨ leaf.kind = .identifier) ∧
    leaf.position < i ∧ (i : Int) < leaf.position + sourceLength text leaf

instance (text : List Char) (i : Nat) (leaf : Node) : Decidable (leaf.Straddles text i) :=
  inferInstanceAs (Decidable (_ ∧ _))

theorem Reads.lt {a b : Cursor} {lexeme : Lexeme} (h : Reads a lexeme b) :
    a.position < b.position := by
  cases h with
  | opening | closing | operator => exact Nat.lt_succ_self _
  | number isNumeral =>
    exact Nat.lt_add_of_pos_right (List.length_pos_iff.2 isNumeral.ne_nil)
  | identifier nonempty =>
    exact Nat.lt_add_of_pos_right (List.length_pos_iff.2 nonempty)

theorem Lexes.le_position {a b : Cursor} {items : List Placed} (h : Lexes a items b) :
    ∀ item ∈ items, a.position ≤ item.position := by
  induction h with
  | nil => exact List.forall_mem_nil _
  | space _ ih => exact fun item hitem => Nat.le_of_succ_le (ih item hitem)
  | cons first _ ih =>
    exact List.forall_mem_cons.2 ⟨Nat.le_refl _, fun item hitem =>
      Nat.le_trans (Nat.le_of_lt first.lt) (ih item hitem)⟩

variable {text : List Char}

theorem Stands.reads {a b : Cursor} {lexeme : Lexeme} (h : Stands text a)
    (hreads : Reads a lexeme b) : Stands text b := by
  cases hleaf : Placed.leaf? ⟨lexeme, a.position⟩ with
  | some leaf => exact (h.source hreads hleaf).2.2.2
  | none =>
    cases hreads with
    | opening | closing => exact h.next (not_isLetter_of_mem (by decide))
    | number | identifier | operator => cases hleaf

/-- A place inside of a lexeme is inside of a number or an identifier, since all other lexemes are
single characters. -/
theorem Stands.exists_straddles {a b : Cursor} {lexeme : Lexeme} {i : Nat} (h : Stands text a)
    (hreads : Reads a lexeme b) (hlt : a.position < i) (hgt : i < b.position) :
    ∃ leaf, Placed.leaf? ⟨lexeme, a.position⟩ = some leaf ∧ leaf.Straddles text i := by
  have hsource {leaf : Node} (hleaf : Placed.leaf? ⟨lexeme, a.position⟩ = some leaf) :
      leaf.position < i ∧ (i : Int) < leaf.position + sourceLength text leaf := by
    obtain ⟨hplace, -, hlength, -⟩ := h.source hreads hleaf
    omega
  cases hreads with
  | opening | closing | operator => exact absurd hgt (Nat.not_lt.2 hlt)
  | number => exact ⟨_, rfl, .inl rfl, hsource rfl⟩
  | identifier => exact ⟨_, rfl, .inr rfl, hsource rfl⟩

/-- What may stand in front of a text may stand in front of the text with one more space. -/
theorem replaces_withSpace (i : Nat) (s : List Char) : Replaces s (Text.withSpace i s) where
  numeral h := h.withSpace i
  identifier h := by
    rcases head?_withSpace i s with hspace | hsame
    · rw [EndsIdentifier, hspace]
      simp
    · rwa [EndsIdentifier, hsame]

/-- In front of all lexemes, one more space moves all of them. -/
theorem Lexes.withSpace_front {a c : Cursor} {items : List Placed} {i : Nat} (h : Lexes a items c)
    (hi : i = a.position) :
    Lexes ⟨a.position, Text.withSpace (i - a.position) a.rest⟩ (items.map (Placed.move i))
      (c.shift 1) := by
  subst hi
  have hitems : items.map (Placed.move a.position) = items.map (Placed.shift 1) :=
    List.map_congr_left fun item hitem => by
      rw [Placed.move, if_pos (h.le_position item hitem), Placed.shift]
  rw [hitems, Nat.sub_self, withSpace_zero]
  exact .space h.shift

/-- **A text with one more space has the same lexemes**, if the space is not inside of
a number or an identifier. -/
theorem Lexes.withSpace {a c : Cursor} {items : List Placed} {i : Nat} (h : Lexes a items c)
    (hend : c.rest = []) (hstands : Stands text a) (hle : a.position ≤ i)
    (hfree : ∀ item ∈ items, ∀ leaf, item.leaf? = some leaf → ¬ leaf.Straddles text i) :
    Lexes ⟨a.position, Text.withSpace (i - a.position) a.rest⟩ (items.map (Placed.move i))
      (c.shift 1) := by
  induction h with
  | nil a =>
    rw [hend, withSpace_nil]
    exact .space (hend ▸ .nil (a.shift 1))
  | @space p rest items b more ih =>
    rcases Nat.eq_or_lt_of_le hle with heq | hlt
    · exact more.space.withSpace_front heq.symm
    · have hnext := ih hend (hstands.next (not_isLetter_of_mem (by decide))) hlt hfree
      rw [withSpace_cons hlt]
      exact .space hnext
  | @cons a b c lexeme items first more ih =>
    obtain ⟨hfirst, hlater⟩ := List.forall_mem_cons.1 hfree
    rcases Nat.eq_or_lt_of_le hle with heq | hlt
    · exact (more.cons first).withSpace_front heq.symm
    · -- The space is not inside of the first lexeme, so it is behind it.
      have hge : b.position ≤ i := by
        refine Nat.not_lt.1 fun hgt => ?_
        obtain ⟨leaf, hleaf, hstraddles⟩ := hstands.exists_straddles first hlt hgt
        exact hfirst leaf hleaf hstraddles
      obtain ⟨s, hrest, hposition, hreads, -⟩ := first.exists_slice
      have hnext := ih hend (hstands.reads first) hge hlater
      have hmove : Placed.move i ⟨lexeme, a.position⟩ = ⟨lexeme, a.position⟩ := by
        rw [Placed.move, if_neg (Nat.not_le.2 hlt)]
      rw [List.map_cons, hmove, hrest, withSpace_append (by omega),
        show i - a.position - s.length = i - b.position by omega]
      exact .cons (hreads _ (replaces_withSpace _ _)) hnext

/-- **A text with one more space has the same tree**, with the nodes behind the space one character
further on. -/
theorem scan_insertSpace {text : String} {tree : Node} {i : Nat} (h : scan text = .ok tree)
    (hfree : ∀ leaf ∈ tree.leaves, ¬ leaf.Straddles text.toList i) :
    scan (insertSpace i text) = .ok (tree.relocateBelow (moved i)) := by
  obtain ⟨items, nodes, b, hlexes, hend, hnests, rfl⟩ := scan_eq_ok_iff.1 h
  have hmoved := hlexes.withSpace hend (stands_start text) (Nat.zero_le i)
    fun item hitem leaf hleaf => hfree leaf
      (hnests.leavesOf_eq ▸ List.mem_filterMap.2 ⟨item, hitem, hleaf⟩ : leaf ∈ Node.leavesOf nodes)
  refine scan_eq_ok_iff.2 ⟨_, _, b.shift 1, ?_, hend, hnests.move i, rfl⟩
  rw [Cursor.start, insertSpace, String.toList_ofList]
  exact hmoved

end ArithTree.Term
