import ArithTree.Display.Trees
import ArithTree.Proofs.Binary.Operators
import ArithTree.Proofs.Binary.Postfix
import ArithTree.Proofs.Display.Views

/-!
# Views of binary trees

Two trees of texts are the same exactly if they agree node by node, exactly if the same is shown of
them, and exactly if they read the same on one line. The line is made from the listing, operands
before their operator, but it is the same as if it were written by recursion on the tree.

* `same_iff` : agreeing node by node is being equal.
* `OfText` : the trees of texts.
* `render_eq` : what is shown of a tree, by recursion.
* `OfText.eq_iff_display`, `OfText.eq_iff_text` : both views tell the tree.
-/

namespace ArithTree.Binary

open Text Token

/-! ### Agreement -/

theorem eq_of_compareAll {α : Type} {pairs : List (Tree α × Tree α)}
    (h : Tree.compareAll pairs = .ok true) : ∀ pair ∈ pairs, pair.1 = pair.2 := by
  fun_induction Tree.compareAll pairs with
  | case1 => simp
  | case2 => cases h
  | case3 => cases h
  | case4 v k w l pending heq ih =>
    obtain ⟨rfl, rfl⟩ := heq
    exact List.forall_mem_cons.2 ⟨rfl, ih h⟩
  | case5 => cases h
  | case6 v k left right w l left' right' pending heq ih =>
    obtain ⟨rfl, rfl⟩ := heq
    obtain ⟨hright, hmore⟩ := List.forall_mem_cons.1 (ih h)
    obtain ⟨hleft, hpending⟩ := List.forall_mem_cons.1 hmore
    have hright : right = right' := hright
    have hleft : left = left' := hleft
    exact List.forall_mem_cons.2 ⟨by rw [hleft, hright], hpending⟩
  | case7 => cases h
  | case8 => cases h

theorem same_iff {a b : Expression} : a.same b = true ↔ a = b := by
  constructor
  · intro h
    rw [Expression.same] at h
    split at h
    · next agree hcompare =>
      rw [h] at hcompare
      exact eq_of_compareAll hcompare (a, b) List.mem_cons_self
    · next operand _ => exact operand.elim
  · rintro rfl
    exact same_self a

/-! ### Trees of texts -/

/-- The values of operators in trees of texts: the binary operators, and the opening bracket where
one is never closed. -/
def operatorValues : List String := ["+", "-", "*", "/", "("]

/-- A tree as texts have them: numerals at the leaves and operators above. -/
inductive OfText : Expression → Prop where
  | leaf {value : String} (isNumeral : IsNumeral value.toList) : OfText (.leaf value .number)
  | branch {value : String} (isOperator : value ∈ operatorValues) {left right : Expression}
    (ofLeft : OfText left) (ofRight : OfText right) :
    OfText (.branch value .operator left right)

theorem isNumeral_of_ofSymbol {p : Nat} {c : Char} {token : Token} (h : ofSymbol? p c = some token)
    (hkind : token.kind = .number) : IsNumeral token.value.toList := by
  unfold ofSymbol? at h
  split at h
  · next hdigit =>
    cases h
    have hc : c.isDigit := hdigit.1
    rw [ofChar, Char.toString_eq_singleton, String.toList_singleton]
    exact ⟨List.forall_mem_singleton.2 (.inl hc), List.count_le_length, c, List.mem_cons_self, hc⟩
  · split at h
    · cases h
      cases hkind
    · split at h
      · cases h
        cases hkind
      · cases h

theorem isNumeral_of_accepts {opened : List Nat} {p : Nat} {text : List Char} {tokens : List Token}
    (h : Accepts opened p text tokens) :
    ∀ token ∈ tokens, token.kind = .number → IsNumeral token.value.toList := by
  induction h with
  | nil => simp
  | space _ ih => exact ih
  | number isNumeral _ _ ih =>
    refine List.forall_mem_cons.2 ⟨fun _ => ?_, ih⟩
    rwa [String.toList_ofList]
  | operator _ _ ih | opening _ ih | closing _ ih =>
    exact List.forall_mem_cons.2 ⟨fun hkind => (by cases hkind), ih⟩

theorem isNumeral_of_splitFrom {p : Nat} {text : List Char} :
    ∀ token ∈ splitFrom p text, token.kind = .number → IsNumeral token.value.toList := by
  induction text generalizing p with
  | nil => simp [splitFrom]
  | cons c rest ih =>
    rw [splitFrom]
    exact List.forall_mem_append.2
      ⟨fun token hmem => isNumeral_of_ofSymbol (Option.mem_toList.1 hmem), ih⟩

theorem isNumeral_of_readTokens {wholeNumbers : Bool} {text : String} {tokens : List Token}
    (h : readTokens wholeNumbers text = .ok tokens) :
    ∀ token ∈ tokens, token.kind = .number → IsNumeral token.value.toList := by
  cases wholeNumbers with
  | true => exact isNumeral_of_accepts (lexemesFrom_eq_ok_iff.1 h)
  | false =>
    cases h
    exact isNumeral_of_splitFrom

/-- What goes out in postfix order has the values that the nodes of trees have. -/
theorem value_of_postfixTokens {wholeNumbers : Bool} {text : String} {out : List Token}
    (h : postfixTokens wholeNumbers text = .ok out) : ∀ token ∈ out,
    (token.kind = .number → IsNumeral token.value.toList) ∧
      (token.kind = .operator → token.value ∈ operatorValues) := by
  obtain ⟨tokens, left, hread, -, hperm⟩ := postfixTokens_perm h
  intro token hmem
  constructor
  · intro hkind
    rcases List.mem_append.1 (hperm.mem_iff.1 hmem) with hmem | hmem
    · exact isNumeral_of_readTokens hread token (List.mem_filter.1 hmem).1 hkind
    · obtain ⟨p, -, rfl⟩ := List.mem_map.1 hmem
      cases hkind
  · intro hkind
    rcases value_of_perm (isFlat_of_readTokens hread) hperm hmem hkind with hvalue | hvalue
    · exact List.mem_append_left ["("] hvalue
    · exact hvalue ▸ List.mem_append_right ["+", "-", "*", "/"] List.mem_cons_self

theorem Proper.ofText {tree : Expression} (h : Proper tree)
    (hvalues : ∀ entry ∈ postorder tree, (entry.kind = .number → IsNumeral entry.value.toList) ∧
      (entry.kind = .operator → entry.value ∈ operatorValues)) : OfText tree := by
  induction h with
  | leaf value => exact .leaf ((hvalues _ List.mem_cons_self).1 rfl)
  | branch value _ _ ihLeft ihRight =>
    rw [postorder, List.forall_mem_append, List.forall_mem_append] at hvalues
    obtain ⟨⟨hleft, hright⟩, hnode⟩ := hvalues
    exact .branch ((hnode _ List.mem_cons_self).2 rfl) (ihLeft hleft) (ihRight hright)

theorem ofText_of_ofPostfix {wholeNumbers : Bool} {text : String} {out : List Token}
    {tree : Expression} (hout : postfixTokens wholeNumbers text = .ok out)
    (h : ofPostfix out = .ok tree) : OfText tree := by
  refine (proper_of_ofPostfix h).ofText fun entry hentry => ?_
  -- The tree lists the tokens it was folded from.
  have htoken : entry.token ∈ out.map unplaced := by
    rw [← toTokens_ofPostfix h, toTokens_eq]
    exact List.mem_map_of_mem hentry
  obtain ⟨token, htoken, heq⟩ := List.mem_map.1 htoken
  have hvalue : token.value = entry.value := congrArg Token.value heq
  have hkind : token.kind = entry.kind := congrArg Token.kind heq
  rw [← hvalue, ← hkind]
  exact value_of_postfixTokens hout token htoken

/-! ### What is shown -/

/-- What is shown of a tree. -/
def display : Expression → Display
  | .leaf value kind => ⟨value, Tree.describe.styleOf kind, []⟩
  | .branch value kind left right =>
    ⟨value, Tree.describe.styleOf kind, [display left, display right]⟩
  | .foreign operand => operand.elim

/-- Nothing of a tree is refused when it is shown. -/
theorem render_eq (tree : Expression) : render tree = .ok (display tree) := by
  refine render_eq_ok (p := fun _ => True) (fun node _ => ?_) trivial
  cases node with
  | leaf value kind => exact ⟨_, rfl, rfl, fun _ _ => trivial⟩
  | branch value kind left right => exact ⟨_, rfl, rfl, fun _ _ => trivial⟩
  | foreign operand => exact operand.elim

namespace OfText

variable {a b : Expression}

theorem isLabel_of_mem {value : String} (h : value ∈ operatorValues) :
    IsLabel .operator value.toList := by
  have hchars : operatorValues.map String.toList = ['+', '-', '*', '/', '('].map ([·]) := by decide
  have hvalue := List.mem_map_of_mem h (f := String.toList)
  rw [hchars] at hvalue
  obtain ⟨c, hc, heq⟩ := List.mem_map.1 hvalue
  rw [← heq]
  refine .operator ?_
  simp only [List.mem_cons, List.not_mem_nil, or_false] at hc
  rcases hc with rfl | rfl | rfl | rfl | rfl <;> simp

theorem labelled (h : OfText a) : (display a).Labelled := by
  induction h with
  | leaf isNumeral => exact .mk (.of_isNumeral isNumeral) (List.forall_mem_nil _)
  | branch isOperator _ _ ihLeft ihRight =>
    exact .mk (isLabel_of_mem isOperator) (List.forall_mem_cons.2 ⟨ihLeft,
      List.forall_mem_singleton.2 ihRight⟩)

/-- What is shown of a tree tells the tree. -/
theorem eq_of_display (ha : OfText a) (hb : OfText b) (h : display a = display b) : a = b := by
  induction ha generalizing b with
  | leaf =>
    cases hb with
    | leaf =>
      obtain ⟨rfl, -⟩ := Display.mk.inj h
      rfl
    | branch => cases congrArg Display.children h
  | branch _ _ _ ihLeft ihRight =>
    cases hb with
    | leaf => cases congrArg Display.children h
    | branch _ ofLeft ofRight =>
      obtain ⟨rfl, -, hoperands⟩ := Display.mk.inj h
      obtain ⟨hleft, hright⟩ := List.cons.inj hoperands
      rw [ihLeft ofLeft hleft, ihRight ofRight (List.cons.inj hright).1]

end OfText

/-! ### The line -/

/-- The tree on one line. -/
def line : Expression → String
  | .leaf value _ => "Number(" ++ value ++ ")"
  | .branch value _ left right =>
    "BinOp(" ++ quote value ++ ", left=" ++ line left ++ ", right=" ++ line right ++ ")"
  | .foreign operand => operand.elim

/-- A listed tree leaves its line, whatever lines were finished before. -/
theorem textsOf_postorder (tree : Expression) (texts : List String) (entries : List Entry) :
    Expression.textsOf texts (postorder tree ++ entries) =
      Expression.textsOf (line tree :: texts) entries := by
  induction tree generalizing texts entries with
  | leaf value kind => simp [postorder, Expression.textsOf, line]
  | branch value kind left right ihLeft ihRight =>
    rw [postorder, List.append_assoc, List.append_assoc, ihLeft, ihRight, List.singleton_append,
      Expression.textsOf, if_neg Bool.false_ne_true, line]
  | foreign operand => exact operand.elim

theorem textsOf_listing (tree : Expression) :
    Expression.textsOf [] tree.listing = some [line tree] := by
  have htexts := textsOf_postorder tree [] []
  rwa [List.append_nil, Expression.textsOf, ← listing_eq_postorder] at htexts

theorem text_eq_line (tree : Expression) : tree.text = line tree := by
  rw [Expression.text, textsOf_listing]

namespace OfText

variable {a b : Expression}

/-- The line of a tree tells where it ends and what the tree is. -/
theorem line_append_injective (ha : OfText a) (hb : OfText b) {behind later : List Char}
    (h : (line a).toList ++ behind = (line b).toList ++ later) : a = b ∧ behind = later := by
  have hcomma : ∀ value ∈ operatorValues, ',' ∉ (quote value).toList := by decide
  have hquote : ∀ value ∈ operatorValues, ∀ other ∈ operatorValues,
      (quote value).toList = (quote other).toList → value = other := by decide
  induction ha generalizing b behind later with
  | @leaf value isNumeral =>
    cases hb with
    | @leaf other isNumeral' =>
      simp only [line, String.toList_append, List.append_assoc, List.append_cancel_left_eq] at h
      obtain ⟨hvalue, hbehind⟩ := append_cons_injective
        ((IsLabel.of_isNumeral isNumeral).not_mem_closing (by simp))
        ((IsLabel.of_isNumeral isNumeral').not_mem_closing (by simp)) h
      rw [String.toList_injective hvalue]
      exact ⟨rfl, hbehind⟩
    | branch =>
      simp [line] at h
  | @branch value isOperator left right _ _ ihLeft ihRight =>
    cases hb with
    | leaf => simp [line] at h
    | @branch other isOperator' left' right' ofLeft ofRight =>
      simp only [line, String.toList_append, List.append_assoc, List.append_cancel_left_eq] at h
      -- A quoted operator has no comma in it, so it ends before the left operand.
      obtain ⟨hvalue, hoperands⟩ :=
        append_cons_injective (hcomma _ isOperator) (hcomma _ isOperator') h
      obtain ⟨rfl, hright⟩ := ihLeft ofLeft (List.append_cancel_left hoperands)
      obtain ⟨rfl, hend⟩ := ihRight ofRight (List.append_cancel_left hright)
      rw [hquote _ isOperator _ isOperator' hvalue]
      exact ⟨rfl, List.append_cancel_left hend⟩

theorem eq_iff_display (ha : OfText a) (hb : OfText b) : a = b ↔ display a = display b :=
  ⟨congrArg display, ha.eq_of_display hb⟩

theorem eq_iff_text (ha : OfText a) (hb : OfText b) : a = b ↔ a.text = b.text := by
  refine ⟨congrArg Expression.text, fun h => ?_⟩
  have hlines : (line a).toList ++ [] = (line b).toList ++ [] := by
    rw [← text_eq_line, h, text_eq_line]
  exact (ha.line_append_injective hb hlines).1

end OfText

end ArithTree.Binary
