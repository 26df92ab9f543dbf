import ArithTree.Proofs.Term.Views

/-!
# Lines of term trees

The line of a tree is written piece by piece, but it is the same as if it were written by recursion
on the tree. Behind the name of its kind a label stands between brackets and has no closing one in
it, so the line of a tree tells where the tree ends and what is shown of it.

* `Node.text_eq_line` : the line by recursion.
* `OfText.tells` : a line tells its tree, whatever text stands behind it.
* `OfText.unplaced_eq_iff_text` : trees of texts with the same line differ in places at most.
-/

namespace ArithTree.Term

open Text

namespace Node

/-! ### The line by recursion -/

/-- The tree on one line. -/
def line : Node → String :=
  fold fun kind payload _ children =>
    if kind = .term then "Term([" ++ ", ".intercalate children ++ "])"
    else leafText (mk kind payload 0 [])

theorem line_term {node : Node} (h : node.isTerm) :
    node.line = "Term([" ++ ", ".intercalate (node.children.map line) ++ "])" := by
  obtain ⟨kind, payload, position, children⟩ := node
  have hkind : kind = .term := of_decide_eq_true h
  rw [line, fold, if_pos hkind, foldAll_eq]
  rfl

theorem line_leaf {node : Node} (h : ¬ node.isTerm) : node.line = leafText node := by
  obtain ⟨kind, payload, position, children⟩ := node
  have hkind : kind ≠ .term := fun hkind => h (decide_eq_true hkind)
  rw [line, fold, if_neg hkind]
  rfl

/-- What a piece adds to the line. -/
def Piece.written : Piece → String
  | text s => s
  | node n => n.line

theorem childPieces_cons_cons (node next : Node) (nodes : List Node) :
    childPieces (node :: next :: nodes) =
      .node node :: .text ", " :: childPieces (next :: nodes) := rfl

theorem join_childPieces (children : List Node) :
    String.join ((childPieces children).map Piece.written) =
      ", ".intercalate (children.map line) := by
  match children with
  | [] => rfl
  | [node] => exact (String.join_cons).trans (String.append_empty)
  | node :: next :: nodes =>
    have hrest := join_childPieces (next :: nodes)
    rw [List.map_cons (f := line)] at hrest
    rw [childPieces_cons_cons, List.map_cons, List.map_cons, String.join_cons, String.join_cons,
      hrest, List.map_cons, List.map_cons, String.intercalate_cons_cons, String.append_assoc]
    rfl

/-- The pieces of a Term are those of its children between its brackets. -/
theorem join_pieceTexts (pending : List Piece) :
    String.join (pieceTexts pending) = String.join (pending.map Piece.written) := by
  fun_induction pieceTexts pending with
  | case1 => rfl
  | case2 s pending ih => rw [String.join_cons, ih, List.map_cons, String.join_cons, Piece.written]
  | case3 n pending hterm ih =>
    rw [String.join_cons, ih, List.map_append, String.join_append, join_childPieces, List.map_cons,
      List.map_cons, String.join_cons, String.join_cons, Piece.written, Piece.written,
      line_term hterm, String.append_assoc, String.append_assoc]
  | case4 n pending hterm ih =>
    rw [String.join_cons, ih, List.map_cons, String.join_cons, Piece.written, line_leaf hterm]

theorem text_eq_line (node : Node) : node.text = node.line := by
  rw [text, join_pieceTexts, List.map_singleton, String.join_cons, String.join_nil,
    String.append_empty, Piece.written]

/-! ### Parts of a line -/

/-- The kinds that have a meaning. -/
def kinds : List Kind := [.term, .number, .identifier, .operator]

/-- The name of a kind as it stands on the line. -/
def title : Kind → String
  | .term => "Term"
  | .number => "Number"
  | .identifier => "Identifier"
  | .operator => "Operator"
  | .other name _ => capitalize name

theorem capitalize_name : ∀ kind ∈ kinds, capitalize kind.name = title kind := by decide

/-- What stands on the line behind the name of the kind and the opening bracket. -/
def body (node : Node) : List Char :=
  if node.isTerm then '[' :: ((", ".intercalate (node.children.map line)).toList ++ [']', ')'])
  else node.payload.label.toList ++ [')']

theorem toList_line {node : Node} (h : node.kind ∈ kinds) :
    node.line.toList = (title node.kind).toList ++ '(' :: node.body := by
  by_cases hterm : node.isTerm
  · have hkind : node.kind = .term := of_decide_eq_true hterm
    rw [line_term hterm, body, if_pos hterm, hkind, title]
    simp
  · rw [line_leaf hterm, body, if_neg hterm, leafText, capitalize_name _ h]
    simp

/-- The lines of the nodes behind the first one of a row, with a comma before each. -/
def moreLines (nodes : List Node) : List Char :=
  nodes.flatMap fun node => ',' :: ' ' :: node.line.toList

theorem toList_intercalate_cons (node : Node) (nodes : List Node) :
    (", ".intercalate ((node :: nodes).map line)).toList = node.line.toList ++ moreLines nodes := by
  induction nodes generalizing node with
  | nil => simp [moreLines]
  | cons next nodes ih =>
    have hmore : moreLines (next :: nodes) =
        ", ".toList ++ (next.line.toList ++ moreLines nodes) := List.flatMap_cons
    rw [hmore, ← ih, List.map_cons, List.map_cons, String.intercalate_cons_cons,
      String.toList_append, String.toList_append, List.append_assoc]

end Node

open Node (line body kinds title moreLines toList_line toList_intercalate_cons)

/-! ### Lines of texts -/

/-- The line of a node tells what is shown of it, whatever text stands behind it. -/
def Tells (node : Node) : Prop :=
  ∀ {other : Node}, OfText other → ∀ {behind later : List Char},
    node.line.toList ++ behind = other.line.toList ++ later →
      node.display = other.display ∧ behind = later

namespace OfText

variable {a b : Node}

theorem kind_mem (h : OfText a) : a.kind ∈ kinds := by
  cases h with
  | number | identifier | operator | group => simp [kinds, Node.kind, Node.term]

/-- The line tells the kind. -/
theorem kind_eq_of_line (ha : OfText a) (hb : OfText b) {behind later : List Char}
    (h : a.line.toList ++ behind = b.line.toList ++ later) :
    a.kind = b.kind ∧ body a ++ behind = body b ++ later := by
  have hopening : ∀ kind ∈ kinds, '(' ∉ (title kind).toList := by decide
  have htitles : ∀ kind ∈ kinds, ∀ other ∈ kinds,
      (title kind).toList = (title other).toList → kind = other := by decide
  rw [toList_line ha.kind_mem, toList_line hb.kind_mem, List.append_assoc, List.append_assoc,
    List.cons_append, List.cons_append] at h
  obtain ⟨htitle, hbody⟩ := append_cons_injective (hopening _ ha.kind_mem)
    (hopening _ hb.kind_mem) h
  exact ⟨htitles _ ha.kind_mem _ hb.kind_mem htitle, hbody⟩

theorem isLabel_leaf (ha : OfText a) (h : a.kind ≠ .term) :
    IsLabel (Node.styleOf a.kind) a.payload.label.toList := by
  have hlabelled := ha.labelled
  rw [Node.display_leaf h] at hlabelled
  obtain ⟨isLabel, -⟩ := hlabelled
  exact isLabel

theorem closing_not_mem_label (ha : OfText a) (h : a.kind ≠ .term) :
    ')' ∉ a.payload.label.toList := by
  refine (ha.isLabel_leaf h).not_mem_closing ?_
  cases ha with
  | number | identifier | operator => simp [Node.styleOf, Node.kind]
  | group => exact absurd rfl h

theorem tells_leaf (ha : OfText a) (hleaf : a.kind ≠ .term) : Tells a := by
  intro b hb behind later h
  obtain ⟨hkind, hbody⟩ := kind_eq_of_line ha hb h
  have hleaf' : b.kind ≠ .term := hkind ▸ hleaf
  rw [body, body, if_neg (by simpa [Node.isTerm] using hleaf),
    if_neg (by simpa [Node.isTerm] using hleaf'), List.append_assoc, List.append_assoc] at hbody
  obtain ⟨hlabel, hbehind⟩ := append_cons_injective (ha.closing_not_mem_label hleaf)
    (hb.closing_not_mem_label hleaf') hbody
  rw [Node.display_leaf hleaf, Node.display_leaf hleaf', hkind, String.toList_injective hlabel]
  exact ⟨rfl, hbehind⟩

theorem moreLines_told {children others : List Node} (hchildren : ∀ child ∈ children, Tells child)
    (hothers : ∀ other ∈ others, OfText other) {behind later : List Char}
    (h : moreLines children ++ ']' :: behind = moreLines others ++ ']' :: later) :
    children.map Node.display = others.map Node.display ∧ behind = later := by
  induction children generalizing others with
  | nil =>
    cases others with
    | nil => exact ⟨rfl, (List.cons.inj h).2⟩
    | cons other others => exact absurd (List.cons.inj h).1 (by decide)
  | cons child children ih =>
    cases others with
    | nil => exact absurd (List.cons.inj h).1 (by decide)
    | cons other others =>
      obtain ⟨htells, hchildren⟩ := List.forall_mem_cons.1 hchildren
      obtain ⟨hother, hothers⟩ := List.forall_mem_cons.1 hothers
      simp only [moreLines, List.flatMap_cons, List.cons_append, List.append_assoc, List.cons.injEq,
        true_and] at h
      obtain ⟨hchild, hrest⟩ := htells hother h
      obtain ⟨hdisplay, hbehind⟩ := ih hchildren hothers hrest
      rw [List.map_cons, List.map_cons, hchild, hdisplay]
      exact ⟨rfl, hbehind⟩

/-- A line does not begin as what stands behind a row does. -/
theorem line_append_ne (ha : OfText a) (behind more : List Char) :
    a.line.toList ++ behind ≠ ']' :: more := by
  have hfirst : ∀ kind ∈ kinds, (title kind).toList.head? ≠ some ']' := by decide
  intro h
  have hhead := congrArg List.head? h
  rw [toList_line ha.kind_mem, List.append_assoc] at hhead
  cases htitle : (title a.kind).toList with
  | nil =>
    rw [htitle] at hhead
    cases hhead
  | cons c name =>
    rw [htitle] at hhead
    exact hfirst a.kind ha.kind_mem (htitle ▸ hhead)

theorem row_told {children others : List Node} (hchildren : ∀ child ∈ children, Tells child)
    (below : ∀ child ∈ children, OfText child) (hothers : ∀ other ∈ others, OfText other)
    {behind later : List Char}
    (h : (", ".intercalate (children.map line)).toList ++ ']' :: behind =
      (", ".intercalate (others.map line)).toList ++ ']' :: later) :
    children.map Node.display = others.map Node.display ∧ behind = later := by
  match children, others with
  | [], [] => exact ⟨rfl, (List.cons.inj h).2⟩
  | [], other :: others =>
    -- An empty row ends at once, and no line begins with the bracket that ends it.
    rw [toList_intercalate_cons, List.append_assoc] at h
    exact absurd h.symm ((List.forall_mem_cons.1 hothers).1.line_append_ne _ _)
  | child :: children, [] =>
    rw [toList_intercalate_cons, List.append_assoc] at h
    exact absurd h ((List.forall_mem_cons.1 below).1.line_append_ne _ _)
  | child :: children, other :: others =>
    obtain ⟨htells, hmore⟩ := List.forall_mem_cons.1 hchildren
    obtain ⟨hother, hothers⟩ := List.forall_mem_cons.1 hothers
    rw [toList_intercalate_cons, toList_intercalate_cons, List.append_assoc, List.append_assoc] at h
    obtain ⟨hchild, hrest⟩ := htells hother h
    obtain ⟨hdisplay, hbehind⟩ := moreLines_told hmore hothers hrest
    rw [List.map_cons, List.map_cons, hchild, hdisplay]
    exact ⟨rfl, hbehind⟩

/-- The line of a tree tells where it ends and what is shown of the tree. -/
theorem tells (ha : OfText a) : Tells a := by
  induction ha with
  | number d p => exact tells_leaf (.number d p) (by simp [Node.kind])
  | identifier p nonempty letters =>
    exact tells_leaf (.identifier p nonempty letters) (by simp [Node.kind])
  | operator p isOperator => exact tells_leaf (.operator p isOperator) (by simp [Node.kind])
  | @group p children below ih =>
    intro b hb behind later h
    obtain ⟨hkind, hbody⟩ := kind_eq_of_line (.group p below) hb h
    cases hb with
    | number | identifier | operator => cases hkind
    | @group q others hothers =>
      simp only [body, Node.isTerm, Node.term, Node.kind, Node.children, decide_true, if_true,
        List.cons_append, List.append_assoc, List.cons.injEq, true_and, List.nil_append] at hbody
      obtain ⟨hrow, hbehind⟩ := row_told ih below hothers hbody
      rw [Node.display_term, Node.display_term, hrow]
      exact ⟨rfl, (List.cons.inj hbehind).2⟩

/-- Trees of texts are the same but for the places exactly if they read the same on one line. -/
theorem unplaced_eq_iff_text (ha : OfText a) (hb : OfText b) :
    a.unplaced = b.unplaced ↔ a.text = b.text := by
  rw [Node.text_eq_line, Node.text_eq_line]
  constructor
  · intro h
    rw [line, ← Node.fold_unplaced, h, Node.fold_unplaced]
  · intro h
    have hlines : a.line.toList ++ [] = b.line.toList ++ [] := by rw [h]
    exact ha.unplaced_eq_of_display hb (ha.tells hb hlines).1

end OfText

end ArithTree.Term
