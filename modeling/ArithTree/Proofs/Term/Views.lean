import ArithTree.Display.Trees
import ArithTree.Proofs.Display.Views
import ArithTree.Proofs.Term.Decimals
import ArithTree.Proofs.Term.Layout

/-!
# Views of term trees

Two trees of texts are the same but for the places of their nodes exactly if the same is shown of
them: labels tell the kinds of the leaves, and the label of a number its digits and its scale.

* `Node.fold`, `Node.unplaced` : recursion on a tree, and the tree without the places of its nodes.
* `OfText` : the trees of texts.
* `OfText.render_eq` : what is shown of a tree, by recursion.
* `OfText.unplaced_eq_iff_display` : what is shown tells the tree.
-/

namespace ArithTree.Term

open Text

namespace Node

variable {α : Type}

mutual

/-- A value of a tree, made from those of its children. -/
def fold (f : Kind → Payload → Int → List α → α) : Node → α
  | mk kind payload position children => f kind payload position (foldAll f children)

/-- The values of the trees of a row. -/
def foldAll (f : Kind → Payload → Int → List α → α) : List Node → List α
  | [] => []
  | node :: nodes => node.fold f :: foldAll f nodes

end

theorem foldAll_eq (f : Kind → Payload → Int → List α → α) (nodes : List Node) :
    foldAll f nodes = nodes.map (fold f) := by
  induction nodes with
  | nil => rfl
  | cons node nodes ih => rw [foldAll, ih, List.map_cons]

/-- The tree with all its nodes at the place 0. -/
def unplaced : Node → Node := fold fun kind payload _ children => mk kind payload 0 children

theorem unplaced_term (p : Int) (children : List Node) :
    (term p children).unplaced = term 0 (children.map unplaced) := by
  rw [term, unplaced, fold, foldAll_eq, term]

mutual

/-- What is made from kinds and payloads alone is the same without the places. -/
theorem fold_unplaced (f : Kind → Payload → List α → α) (node : Node) :
    node.unplaced.fold (fun kind payload _ => f kind payload) =
      node.fold fun kind payload _ => f kind payload := by
  obtain ⟨kind, payload, position, children⟩ := node
  rw [unplaced, fold, fold, fold, foldAll_unplaced]

theorem foldAll_unplaced (f : Kind → Payload → List α → α) (nodes : List Node) :
    foldAll (fun kind payload _ => f kind payload)
        (foldAll (fun kind payload _ children => mk kind payload 0 children) nodes) =
      foldAll (fun kind payload _ => f kind payload) nodes := by
  match nodes with
  | [] => rfl
  | node :: nodes =>
    have hnode := fold_unplaced f node
    rw [unplaced] at hnode
    rw [foldAll, foldAll, foldAll, foldAll_unplaced, hnode]

end

/-! ### What is shown -/

/-- How nodes of a kind are dressed. -/
def styleOf : Kind → Style
  | .term => .term
  | .number => .number
  | .identifier => .identifier
  | _ => .operator

/-- What is shown of a tree. -/
def display : Node → Display :=
  fold fun kind payload _ children =>
    if kind = .term then ⟨"()", .term, children⟩ else ⟨payload.label, styleOf kind, []⟩

theorem display_term (p : Int) (children : List Node) :
    (term p children).display = ⟨"()", .term, children.map display⟩ := by
  rw [term, display, fold, if_pos rfl, foldAll_eq]

theorem display_leaf {node : Node} (h : node.kind ≠ .term) :
    node.display = ⟨node.payload.label, styleOf node.kind, []⟩ := by
  obtain ⟨kind, payload, position, children⟩ := node
  exact if_neg h

end Node

/-! ### Trees of texts -/

/-- Rows that agree in what tells their elements agree in what is told. -/
theorem map_eq_map_of {α β γ : Type} {f : α → β} {g : α → γ} {row other : List α}
    (h : ∀ x ∈ row, ∀ y ∈ other, f x = f y → g x = g y) (heq : row.map f = other.map f) :
    row.map g = other.map g := by
  induction row generalizing other with
  | nil => rw [List.map_eq_nil_iff.1 heq.symm]
  | cons x row ih =>
    cases other with
    | nil => cases heq
    | cons y other =>
      rw [List.map_cons, List.map_cons, List.cons.injEq] at heq
      rw [List.map_cons, List.map_cons, h x List.mem_cons_self y List.mem_cons_self heq.1,
        ih (fun x hx y hy => h x (List.mem_cons_of_mem _ hx) y (List.mem_cons_of_mem _ hy)) heq.2]

/-- A tree as texts have them: leaves carry what their kind says, and only Terms have children. -/
inductive OfText : Node → Prop where
  | number (d : Decimal) (p : Int) : OfText (.mk .number (.decimal d) p [])
  | identifier {name : String} (p : Int) (nonempty : name ≠ "")
    (letters : ∀ c ∈ name.toList, isLetter c) : OfText (.mk .identifier (.text name) p [])
  | operator {c : Char} (p : Int) (isOperator : c ∈ operatorSymbols) :
    OfText (.mk .operator (.text c.toString) p [])
  | group (p : Int) {children : List Node} (below : ∀ child ∈ children, OfText child) :
    OfText (.term p children)

theorem IsSource.ofText {text : List Char} {node : Node} (h : IsSource text node) :
    OfText node := by
  cases h with
  | number => exact .number _ _
  | identifier nonempty _ letters => exact .identifier _ nonempty letters
  | operator isOperator => exact .operator _ isOperator

theorem LaidOut.ofText {text : List Char} {p q : Nat} {nodes : List Node}
    (h : LaidOut text p nodes q) : ∀ node ∈ nodes, OfText node := by
  induction h with
  | nil => exact List.forall_mem_nil _
  | space _ _ ih => exact ih
  | leaf _ source _ ih => exact List.forall_mem_cons.2 ⟨source.ofText, ih⟩
  | group _ _ _ _ ihInside ih => exact List.forall_mem_cons.2 ⟨.group _ ihInside, ih⟩

theorem ofText_of_scan {text : String} {tree : Node} (h : scan text = .ok tree) : OfText tree := by
  obtain ⟨nodes, n, rfl, hlaid, -⟩ := exists_laidOut_of_scan h
  exact .group 0 hlaid.ofText

namespace OfText

variable {a b : Node}

/-- Nothing of a tree of a text is refused when it is shown. -/
theorem render_eq (h : OfText a) : render a = .ok a.display := by
  refine render_eq_ok (p := OfText) (fun node hnode => ?_) h
  cases hnode with
  | number => exact ⟨_, rfl, rfl, List.forall_mem_nil _⟩
  | identifier => exact ⟨_, rfl, rfl, List.forall_mem_nil _⟩
  | operator => exact ⟨_, rfl, rfl, List.forall_mem_nil _⟩
  | group p below => exact ⟨_, rfl, Node.display_term p _, below⟩

theorem labelled (h : OfText a) : a.display.Labelled := by
  induction h with
  | number d => exact .mk d.isLabel_text (List.forall_mem_nil _)
  | @identifier name p nonempty letters =>
    refine .mk (.identifier (fun hnil => nonempty ?_) letters) (List.forall_mem_nil _)
    exact String.toList_injective hnil
  | operator p isOperator =>
    refine .mk ?_ (List.forall_mem_nil _)
    rw [Payload.label, Char.toString_eq_singleton, String.toList_singleton]
    exact .operator (List.mem_append_left ['('] isOperator)
  | group p below ih =>
    rw [Node.display_term]
    exact .mk .term (List.forall_mem_map.2 ih)

/-- What is shown of a tree tells the tree but for the places. -/
theorem unplaced_eq_of_display (ha : OfText a) (hb : OfText b) (h : a.display = b.display) :
    a.unplaced = b.unplaced := by
  induction ha generalizing b with
  | number d p =>
    cases hb with
    | number e q =>
      have hlabel : d.text = e.text := congrArg Display.label h
      rw [Decimal.text_injective hlabel]
      rfl
    | identifier | operator | group => cases congrArg Display.style h
  | @identifier name p =>
    cases hb with
    | @identifier other q =>
      have hlabel : name = other := congrArg Display.label h
      rw [hlabel]
      rfl
    | number | operator | group => cases congrArg Display.style h
  | @operator c p =>
    cases hb with
    | @operator d q =>
      have hlabel : c.toString = d.toString := congrArg Display.label h
      rw [hlabel]
      rfl
    | number | identifier | group => cases congrArg Display.style h
  | @group p children below ih =>
    cases hb with
    | @group q others hothers =>
      rw [Node.display_term, Node.display_term, Display.mk.injEq] at h
      rw [Node.unplaced_term, Node.unplaced_term, map_eq_map_of ?_ h.2.2]
      exact fun child hchild other hother => ih child hchild (hothers other hother)
    | number | identifier | operator => cases congrArg Display.style h

/-- Trees of texts are the same but for the places exactly if the same is shown of them. -/
theorem unplaced_eq_iff_display (ha : OfText a) (hb : OfText b) :
    a.unplaced = b.unplaced ↔ a.display = b.display := by
  refine ⟨fun h => ?_, ha.unplaced_eq_of_display hb⟩
  rw [Node.display, ← Node.fold_unplaced, h, Node.fold_unplaced]

end OfText

end ArithTree.Term
