import Mathlib.Data.List.Forall2
import ArithTree.Proofs.Term.Layout

/-!
# A tree and its text

Nothing of a text is lost, invented or moved in its tree: every leaf stands for the characters at
its place, every Term for the bracket pair that begins at its place, and together with the spaces
they make up the text.

* `Faithful` : what the nodes of a tree have to do with the places of a text.
* `LaidOut.increasing`, `LaidOut.matched`, `LaidOut.exists_closers` : the laws of a row of trees,
  each by induction on its layout.
* `exists_faithful_of_scan` : the tree of a text is faithful to it.
-/

namespace ArithTree.Term

open Text

namespace Node

mutual

/-- The node and all nodes below it, each before its children. -/
def preorder : Node → List Node
  | mk kind payload position children =>
    mk kind payload position children :: preorderAll children

/-- All nodes of a row of trees, each before its children. -/
def preorderAll : List Node → List Node
  | [] => []
  | node :: nodes => node.preorder ++ preorderAll nodes

end

theorem preorderAll_leaf {node : Node} (h : node.children = []) (nodes : List Node) :
    preorderAll (node :: nodes) = node :: preorderAll nodes := by
  obtain ⟨kind, payload, position, children⟩ := node
  cases h
  rw [preorderAll, preorder, preorderAll, List.singleton_append]

theorem preorderAll_term (p : Int) (children nodes : List Node) :
    preorderAll (.term p children :: nodes) =
      .term p children :: (preorderAll children ++ preorderAll nodes) := by
  rw [preorderAll, term, preorder, List.cons_append]

end Node

open Node (preorderAll preorderAll_leaf preorderAll_term)

/-! ### Places of a text -/

/-- The places from `p` on and before `q`. -/
def places (p q : Nat) : List Nat := List.range' p (q - p)

/-- The characters from the place `p` on and before `q`. -/
def segment (text : List Char) (p q : Nat) : List Char := (text.drop p).take (q - p)

/-- The places of the spaces from `p` on and before `q`. -/
def spacePlaces (text : List Char) (p q : Nat) : List Nat :=
  (places p q).filter fun i => text[i]? = some ' '

/-- The places that a node has for itself. -/
def span (text : List Char) (node : Node) : List Nat :=
  List.range' node.position.toNat (sourceLength text node)

theorem mem_places {p q i : Nat} : i ∈ places p q ↔ p ≤ i ∧ i < q := by
  rw [places, List.mem_range'_1]
  omega

theorem places_append {p q r : Nat} (hpq : p ≤ q) (hqr : q ≤ r) :
    places p r = places p q ++ places q r := by
  have hq : q = p + (q - p) := by omega
  have hr : r - p = (q - p) + (r - q) := by omega
  rw [places, places, places, hr, ← List.range'_append_1, ← hq]

theorem places_succ (p : Nat) : places p (p + 1) = [p] := by
  simp [places]

theorem segment_append {p q r : Nat} (text : List Char) (hpq : p ≤ q) (hqr : q ≤ r) :
    segment text p r = segment text p q ++ segment text q r := by
  have hq : p + (q - p) = q := by omega
  have hr : r - p = (q - p) + (r - q) := by omega
  rw [segment, segment, segment, hr, List.take_add, List.drop_drop, hq]

variable {text : List Char}

theorem segment_succ {p : Nat} {c : Char} (h : text[p]? = some c) :
    segment text p (p + 1) = [c] := by
  rw [← List.head?_drop] at h
  obtain ⟨rest, hrest⟩ := List.head?_eq_some_iff.1 h
  rw [segment, hrest, Nat.add_sub_cancel_left, List.take_succ_cons, List.take_zero]

theorem spacePlaces_append {p q r : Nat} (text : List Char) (hpq : p ≤ q) (hqr : q ≤ r) :
    spacePlaces text p r = spacePlaces text p q ++ spacePlaces text q r := by
  rw [spacePlaces, places_append hpq hqr, List.filter_append, spacePlaces, spacePlaces]

theorem spacePlaces_succ {p : Nat} {c : Char} (h : text[p]? = some c) :
    spacePlaces text p (p + 1) = if c = ' ' then [p] else [] := by
  rw [spacePlaces, places_succ, List.filter_singleton, h]
  simp

/-! ### Leaves -/

namespace IsSource

variable {node : Node}

theorem children (h : IsSource text node) : node.children = [] := by
  cases h <;> rfl

theorem isTerm (h : IsSource text node) : node.isTerm = false := by
  cases h <;> rfl

/-- The characters of a leaf, none of which is a space or a bracket. -/
theorem exists_slice (h : IsSource text node) {p : Nat} (hp : node.position = p) :
    ∃ s, (text.drop p).take (sourceLength text node) = s ∧ sourceLength text node = s.length ∧
      s ≠ [] ∧ ∀ c ∈ s, c ≠ ' ' ∧ c ≠ '(' ∧ c ≠ ')' := by
  cases h with
  | @number p d value =>
    cases hp
    refine ⟨(text.drop p).takeWhile isNumeralChar, ?_, rfl, ?_, ?_⟩
    · exact (List.prefix_iff_eq_take.1 (List.takeWhile_prefix _)).symm
    · intro hnone
      rw [hnone] at value
      cases value
    · intro c hc
      have hin : isNumeralChar c = true := List.all_eq_true.1 List.all_takeWhile c hc
      refine ⟨?_, ?_, ?_⟩ <;> rintro rfl <;> exact absurd hin (by decide)
  | @identifier p name nonempty slice letters =>
    cases hp
    refine ⟨name.toList, slice, String.length_toList.symm, by simpa using nonempty, ?_⟩
    intro c hc
    have hin := letters c hc
    refine ⟨?_, ?_, ?_⟩ <;> rintro rfl <;> exact absurd hin (by decide)
  | @operator p c isOperator slice =>
    cases hp
    refine ⟨[c], ?_, ?_, List.cons_ne_nil c [], ?_⟩
    · simpa [sourceLength, Node.payload] using slice
    · simp [sourceLength, Node.payload]
    · simpa using (ne_of_mem_operatorSymbols isOperator).1

theorem sourceLength_pos (h : IsSource text node) {p : Nat} (hp : node.position = p) :
    0 < sourceLength text node := by
  obtain ⟨s, -, hlength, hne, -⟩ := h.exists_slice hp
  rw [hlength]
  exact List.length_pos_iff.2 hne

theorem span_eq {p : Nat} (hp : node.position = p) :
    span text node = places p (p + sourceLength text node) := by
  rw [span, hp, places, Nat.add_sub_cancel_left, Int.toNat_natCast]

theorem spacePlaces_eq (h : IsSource text node) {p : Nat} (hp : node.position = p) :
    spacePlaces text p (p + sourceLength text node) = [] := by
  obtain ⟨s, hslice, -, -, hchars⟩ := h.exists_slice hp
  refine List.filter_eq_nil_iff.2 fun i hi => ?_
  rw [mem_places] at hi
  intro hspace
  have hmem : ' ' ∈ s := by
    rw [← hslice, List.mem_iff_getElem?]
    refine ⟨i - p, ?_⟩
    rw [List.getElem?_take_of_lt (by omega), List.getElem?_drop, Nat.add_sub_cancel' hi.1]
    simpa using hspace
  exact (hchars ' ' hmem).1 rfl

end IsSource

/-! ### Rows of trees -/

namespace LaidOut

variable {p q : Nat} {nodes : List Node}

theorem le (h : LaidOut text p nodes q) : p ≤ q := by
  induction h with
  | nil => exact Nat.le_refl _
  | space _ _ ih => omega
  | leaf _ _ _ ih => omega
  | group _ _ _ _ ihInside ih => omega

theorem le_length (h : LaidOut text p nodes q) (hp : p ≤ text.length) : q ≤ text.length := by
  induction h with
  | nil => exact hp
  | space char _ ih => exact ih (List.getElem?_eq_some_iff.1 char).1
  | leaf place source _ ih =>
    refine ih ?_
    obtain ⟨s, hslice, hlength, -, -⟩ := source.exists_slice place
    have hmin := congrArg List.length hslice
    rw [List.length_take, List.length_drop] at hmin
    omega
  | group _ _ closing _ _ ih => exact ih (List.getElem?_eq_some_iff.1 closing).1

/-- All brackets between the two ends of a row match. -/
theorem matched (h : LaidOut text p nodes q) : Matched (segment text p q) := by
  induction h with
  | nil p =>
    rw [segment, Nat.sub_self, List.take_zero]
    exact .nil
  | @space p q nodes char more ih =>
    rw [segment_append text (Nat.le_add_right p 1) more.le, segment_succ char]
    exact .other (by decide) (by decide) ih
  | @leaf p q node nodes place source more ih =>
    obtain ⟨s, hslice, -, -, hchars⟩ := source.exists_slice place
    have hown : segment text p (p + sourceLength text node) = s := by
      rw [segment, Nat.add_sub_cancel_left, hslice]
    rw [segment_append text (Nat.le_add_right p _) more.le, hown]
    exact (matched_of_unbracketed fun c hc => (hchars c hc).2).append ih
  | @group p q r children nodes opening inside closing more ihInside ih =>
    have hpq : p ≤ q := Nat.le_of_succ_le inside.le
    rw [segment_append text hpq (Nat.le_of_succ_le more.le),
      segment_append text (Nat.le_add_right p 1) inside.le, segment_succ opening,
      segment_append text (Nat.le_add_right q 1) more.le, segment_succ closing]
    exact .pair ihInside ih

/-- Every node of a row stands between its ends, with all that it has for itself. -/
theorem bounds (h : LaidOut text p nodes q) : ∀ node ∈ preorderAll nodes,
    ∃ i : Nat, node.position = i ∧ p ≤ i ∧ i + sourceLength text node ≤ q ∧
      0 < sourceLength text node := by
  induction h with
  | nil => simp [preorderAll]
  | space _ _ ih =>
    intro node hnode
    obtain ⟨i, hi, hle, hrest⟩ := ih node hnode
    exact ⟨i, hi, Nat.le_of_succ_le hle, hrest⟩
  | @leaf p q node nodes place source more ih =>
    rw [preorderAll_leaf source.children]
    intro other hother
    rcases List.mem_cons.1 hother with rfl | hother
    · exact ⟨p, place, Nat.le_refl p, more.le, source.sourceLength_pos place⟩
    · obtain ⟨i, hi, hle, hrest⟩ := ih other hother
      exact ⟨i, hi, Nat.le_trans (Nat.le_add_right p _) hle, hrest⟩
  | @group p q r children nodes _ inside _ more ihInside ih =>
    have hinside := inside.le
    have hmore := more.le
    rw [preorderAll_term]
    intro node hnode
    rcases List.mem_cons.1 hnode with rfl | hnode
    · refine ⟨p, rfl, Nat.le_refl p, ?_, Nat.one_pos⟩
      have hone : sourceLength text (.term p children) = 1 := rfl
      omega
    · rcases List.mem_append.1 hnode with hnode | hnode
      · obtain ⟨i, hi, hle, hend, hpos⟩ := ihInside node hnode
        exact ⟨i, hi, by omega, by omega, hpos⟩
      · obtain ⟨i, hi, hle, hrest⟩ := ih node hnode
        exact ⟨i, hi, by omega, hrest⟩

theorem source (h : LaidOut text p nodes q) :
    ∀ node ∈ preorderAll nodes, node.isTerm = false → IsSource text node := by
  induction h with
  | nil => simp [preorderAll]
  | space _ _ ih => exact ih
  | leaf place source _ ih =>
    rw [preorderAll_leaf source.children]
    intro other hother hkind
    rcases List.mem_cons.1 hother with rfl | hother
    · exact source
    · exact ih other hother hkind
  | group _ _ _ _ ihInside ih =>
    rw [preorderAll_term]
    intro node hnode hkind
    rcases List.mem_cons.1 hnode with rfl | hnode
    · cases hkind
    · rcases List.mem_append.1 hnode with hnode | hnode
      · exact ihInside node hnode hkind
      · exact ih node hnode hkind

/-- The nodes of a row stand one behind the other. -/
theorem increasing (h : LaidOut text p nodes q) :
    (preorderAll nodes).Pairwise fun a b => a.position < b.position := by
  induction h with
  | nil => exact .nil
  | space _ _ ih => exact ih
  | @leaf p q node nodes place source more ih =>
    rw [preorderAll_leaf source.children]
    refine List.pairwise_cons.2 ⟨fun other hother => ?_, ih⟩
    obtain ⟨i, hi, hle, -⟩ := more.bounds other hother
    have hpos := source.sourceLength_pos place
    rw [place, hi]
    omega
  | @group p q r children nodes _ inside _ more ihInside ih =>
    rw [preorderAll_term]
    have hterm : (Node.term p children).position = p := rfl
    refine List.pairwise_cons.2 ⟨fun node hnode => ?_, List.pairwise_append.2 ⟨ihInside, ih, ?_⟩⟩
    · rw [hterm]
      rcases List.mem_append.1 hnode with hnode | hnode
      · obtain ⟨i, hi, hle, -⟩ := inside.bounds node hnode
        omega
      · obtain ⟨i, hi, hle, -⟩ := more.bounds node hnode
        have := inside.le
        omega
    · intro a ha b hb
      obtain ⟨i, hi, -, hend, -⟩ := inside.bounds a ha
      obtain ⟨j, hj, hle, -⟩ := more.bounds b hb
      omega

end LaidOut

/-! ### Brackets -/

/-- The bracket pair of a Term: it begins at the place of the Term and ends at `q`, and whatever is
below the Term is between its brackets. -/
structure ClosedAt (text : List Char) (node : Node) (q : Nat) : Prop where
  /-- The place of the Term is one of the text. -/
  nonneg : 0 ≤ node.position
  /-- The opening bracket. -/
  opening : text[node.position.toNat]? = some '('
  /-- The closing bracket. -/
  closing : text[q]? = some ')'
  /-- The opening bracket comes first. -/
  before : node.position.toNat < q
  /-- The two brackets are a pair. -/
  pair : Matched (segment text (node.position.toNat + 1) q)
  /-- What is below the Term is strictly between the brackets. -/
  within : ∀ inner ∈ preorderAll node.children, ∀ i ∈ span text inner,
    node.position.toNat < i ∧ i < q

theorem LaidOut.closedAt {p q : Nat} {children : List Node} (opening : text[p]? = some '(')
    (inside : LaidOut text (p + 1) children q) (closing : text[q]? = some ')') :
    ClosedAt text (.term p children) q where
  nonneg := Int.natCast_nonneg p
  opening := opening
  closing := closing
  before := inside.le
  pair := inside.matched
  within := by
    intro inner hinner i hi
    obtain ⟨j, hj, hle, hend, -⟩ := inside.bounds inner hinner
    rw [IsSource.span_eq hj, mem_places] at hi
    refine ⟨?_, by omega⟩
    show p < i
    omega

/-- What the leaves, the brackets and the spaces of a row have for themselves is the text between
its ends, every place once. -/
theorem LaidOut.exists_closers {p q : Nat} {nodes : List Node} (h : LaidOut text p nodes q) :
    ∃ closers, List.Forall₂ (ClosedAt text) ((preorderAll nodes).filter Node.isTerm) closers ∧
      ((preorderAll nodes).flatMap (span text) ++ closers ++ spacePlaces text p q).Perm
        (places p q) := by
  simp only [List.perm_iff_count, List.count_append]
  induction h with
  | nil p => exact ⟨[], .nil, by simp [preorderAll, places, spacePlaces]⟩
  | @space p q nodes char more ih =>
    obtain ⟨closers, hclosers, hcount⟩ := ih
    refine ⟨closers, hclosers, fun i => ?_⟩
    rw [spacePlaces_append text (Nat.le_add_right p 1) more.le, spacePlaces_succ char, if_pos rfl,
      places_append (Nat.le_add_right p 1) more.le, places_succ, List.count_append,
      List.count_append, ← hcount i]
    omega
  | @leaf p q node nodes place source more ih =>
    obtain ⟨closers, hclosers, hcount⟩ := ih
    refine ⟨closers, ?_, fun i => ?_⟩
    · rwa [preorderAll_leaf source.children, List.filter_cons_of_neg (by simp [source.isTerm])]
    · rw [preorderAll_leaf source.children, List.flatMap_cons, IsSource.span_eq place,
        spacePlaces_append text (Nat.le_add_right p _) more.le, source.spacePlaces_eq place,
        List.nil_append, places_append (Nat.le_add_right p _) more.le, List.count_append,
        List.count_append, ← hcount i]
      omega
  | @group p q r children nodes opening inside closing more ihInside ih =>
    obtain ⟨insideClosers, hinside, hinsideCount⟩ := ihInside
    obtain ⟨closers, hclosers, hcount⟩ := ih
    have hpq : p ≤ q := Nat.le_of_succ_le inside.le
    have hqr : q ≤ r := Nat.le_of_succ_le more.le
    refine ⟨q :: (insideClosers ++ closers), ?_, fun i => ?_⟩
    · rw [preorderAll_term, List.filter_cons_of_pos rfl, List.filter_append]
      exact .cons (LaidOut.closedAt opening inside closing) (List.rel_append hinside hclosers)
    · have hown : span text (.term p children) = [p] := rfl
      have hbracket : ¬ '(' = ' ' ∧ ¬ ')' = ' ' := by decide
      rw [preorderAll_term, List.flatMap_cons, List.flatMap_append, hown,
        spacePlaces_append text hpq hqr, spacePlaces_append text (Nat.le_add_right p 1) inside.le,
        spacePlaces_succ opening, if_neg hbracket.1,
        spacePlaces_append text (Nat.le_add_right q 1) more.le, spacePlaces_succ closing,
        if_neg hbracket.2, places_append hpq hqr,
        places_append (Nat.le_add_right p 1) inside.le, places_succ,
        places_append (Nat.le_add_right q 1) more.le, places_succ]
      have hinsideCount := hinsideCount i
      have hcount := hcount i
      simp only [List.count_append, List.count_cons, List.count_nil] at *
      omega

/-! ### The tree of a text -/

/-- Nodes that lose, invent and reorder nothing of a text; the closing brackets of its Terms are at
the given places. -/
structure Faithful (text : List Char) (nodes : List Node) (closers : List Nat) : Prop where
  /-- A node that is no Term is a leaf and stands for what the text has at its place. -/
  leaves : ∀ node ∈ preorderAll nodes, node.isTerm = false → IsSource text node
  /-- A Term stands for a bracket pair with all that is below it inside. -/
  terms : List.Forall₂ (ClosedAt text) ((preorderAll nodes).filter Node.isTerm) closers
  /-- The nodes come in the order of the text. -/
  increasing : (preorderAll nodes).Pairwise fun a b => a.position < b.position
  /-- Leaves, brackets and spaces together are the text, every place once. -/
  partition : ((preorderAll nodes).flatMap (span text) ++ closers ++
    spacePlaces text 0 text.length).Perm (List.range text.length)

/-- **The tree of a text is faithful to it.** -/
theorem exists_faithful_of_scan {text : String} {tree : Node} (h : scan text = .ok tree) :
    tree = .term 0 tree.children ∧ ∃ closers, Faithful text.toList tree.children closers := by
  obtain ⟨nodes, n, rfl, hlaid, hle⟩ := exists_laidOut_of_scan h
  have hn : n = text.toList.length := by
    have hge := hlaid.le_length (Nat.zero_le _)
    rw [← String.length_toList] at hle
    omega
  subst hn
  obtain ⟨closers, hterms, hpartition⟩ := hlaid.exists_closers
  refine ⟨rfl, closers, hlaid.source, hterms, hlaid.increasing, ?_⟩
  rwa [places, Nat.sub_zero, ← List.range_eq_range'] at hpartition

theorem exists_faithful_of_scan_group :
    let tree : Node := .term 0 [.mk .identifier (.text "ab") 0 [], .mk .operator (.text "+") 3 [],
      .term 4 [.mk .number (.decimal ⟨2, 0⟩) 5 []]]
    scan "ab +(2)" = .ok tree ∧ tree = .term 0 tree.children ∧
      ∃ closers, Faithful "ab +(2)".toList tree.children closers := by
  intro tree
  have hname : Reads ⟨0, ['a', 'b'] ++ [' ', '+', '(', '2', ')']⟩ (.identifier "ab")
      ⟨0 + 2, [' ', '+', '(', '2', ')']⟩ :=
    .identifier (List.cons_ne_nil _ _) (List.all_eq_true.1 rfl) (by simp [EndsIdentifier])
  have htwo : Reads ⟨5, ['2'] ++ [')']⟩ (.number ⟨2, 0⟩) ⟨5 + 1, [')']⟩ :=
    .number (by decide) ⟨'2', rfl, rfl⟩ endsNumeral_closing rfl
  have hlexes : Lexes (.start "ab +(2)") [⟨.identifier "ab", 0⟩, ⟨.operator '+', 3⟩, ⟨.opening, 4⟩,
      ⟨.number ⟨2, 0⟩, 5⟩, ⟨.closing, 6⟩] ⟨7, []⟩ :=
    .cons hname (.space (.cons (.operator (by decide)) (.cons .opening (.cons htwo
      (.cons .closing (.nil _))))))
  have hgroup : Nests [⟨.opening, 4⟩, ⟨.number ⟨2, 0⟩, 5⟩, ⟨.closing, 6⟩] _ :=
    Nests.group (.leaf rfl .nil) .nil
  have h : scan "ab +(2)" = .ok tree :=
    scan_eq_ok_iff.2 ⟨_, _, _, hlexes, rfl, .leaf rfl (.leaf rfl hgroup), rfl⟩
  exact ⟨h, exists_faithful_of_scan h⟩

end ArithTree.Term
