import ArithTree.Display.Basic
import ArithTree.Proofs.Text.Boundary

/-!
# Labels

What a node of the tree of a text is called tells what it is: a pair of brackets is a Term, numbers
begin with a digit or a point, identifiers are letters, and everything else is an operator. No label
has a space or a line feed in it, and none but that of a Term a closing bracket.

* `append_cons_injective` : a text tells where a part of it ends.
* `IsLabel.style_eq` : a label has one style.
* `IsLabel.not_mem_blank`, `IsLabel.not_mem_closing` : what is in no label.
-/

namespace ArithTree

open Text

/-- A text that ends before the first of certain characters is told by what it stands in. -/
theorem append_cons_injective {c : Char} {s t behind later : List Char} (hs : c ∉ s) (ht : c ∉ t)
    (h : s ++ c :: behind = t ++ c :: later) : s = t ∧ behind = later := by
  induction s generalizing t with
  | nil =>
    cases t with
    | nil => exact ⟨rfl, (List.cons.inj h).2⟩
    | cons d t => exact absurd ((List.cons.inj h).1 ▸ List.mem_cons_self) ht
  | cons d s ih =>
    cases t with
    | nil => exact absurd ((List.cons.inj h).1 ▸ List.mem_cons_self) hs
    | cons e t =>
      obtain ⟨rfl, hrest⟩ := List.cons.inj h
      obtain ⟨rfl, hbehind⟩ := ih (fun hc => hs (List.mem_cons_of_mem d hc))
        (fun hc => ht (List.mem_cons_of_mem d hc)) hrest
      exact ⟨rfl, hbehind⟩

/-- The labels that the nodes of a style have in the tree of a text. -/
inductive IsLabel : Style → List Char → Prop where
  | term : IsLabel .term ['(', ')']
  | number {s : List Char} (head : ∃ c ∈ s.head?, InNumeral c)
    (chars : ∀ c ∈ s, InNumeral c ∨ c = 'E' ∨ c = '-') : IsLabel .number s
  | identifier {s : List Char} (nonempty : s ≠ []) (letters : ∀ c ∈ s, isLetter c) :
    IsLabel .identifier s
  /-- An opening bracket counts too, where one that is never closed is an operator. -/
  | operator {c : Char} (isOperator : c ∈ ['+', '-', '*', '/', '=', '(']) : IsLabel .operator [c]

namespace IsLabel

variable {style other : Style} {label : List Char}

theorem of_isNumeral (h : IsNumeral label) : IsLabel .number label := by
  obtain ⟨digit, hdigit, -⟩ := h.digit
  obtain ⟨first, rest, rfl⟩ := List.exists_cons_of_ne_nil (List.ne_nil_of_mem hdigit)
  exact .number ⟨first, rfl, h.chars first List.mem_cons_self⟩ fun c hc => .inl (h.chars c hc)

/-- A character that is no letter, digit, point or minus sign stands in labels of Terms and
operators only. -/
theorem mem_cases {c : Char} (h : IsLabel style label) (hc : c ∈ label)
    (hnumber : ¬ (InNumeral c ∨ c = 'E' ∨ c = '-')) (hletter : ¬ isLetter c) :
    style = .term ∧ c ∈ ['(', ')'] ∨ style = .operator ∧ c ∈ ['+', '-', '*', '/', '=', '('] := by
  cases h with
  | term => exact .inl ⟨rfl, hc⟩
  | number _ chars => exact absurd (chars c hc) hnumber
  | identifier _ letters => exact absurd (letters c hc) hletter
  | operator isOperator =>
    rw [List.mem_singleton] at hc
    exact .inr ⟨rfl, hc ▸ isOperator⟩

theorem not_mem_blank (h : IsLabel style label) : ∀ c ∈ [' ', '\n'], c ∉ label := by
  intro c hblank hc
  have hall : [' ', '\n'].all fun c => ¬ (c.isDigit ∨ c = '.' ∨ c = 'E' ∨ c = '-') ∧
      c.toNat < 'A'.toNat ∧ c ∉ ['(', ')'] ∧ c ∉ ['+', '-', '*', '/', '=', '('] := by decide
  obtain ⟨hnumber, hlt, hterm, hoperator⟩ := of_decide_eq_true (List.all_eq_true.1 hall c hblank)
  have hletter : ¬ isLetter c := fun hc => absurd (le_toNat_of_isLetter hc) (by omega)
  rcases h.mem_cases hc (by simpa [InNumeral, or_assoc] using hnumber) hletter with
    ⟨-, hmem⟩ | ⟨-, hmem⟩
  · exact hterm hmem
  · exact hoperator hmem

theorem not_mem_closing (h : IsLabel style label) (hstyle : style ≠ .term) : ')' ∉ label := by
  intro hc
  have hletter : ¬ isLetter ')' := by rw [not_isLetter_of_mem (by decide)]; decide
  rcases h.mem_cases hc (by simp [InNumeral]) hletter with ⟨hterm, -⟩ | ⟨-, hmem⟩
  · exact hstyle hterm
  · exact absurd hmem (by decide)

/-- The style that the beginning of a label tells. -/
def styleOf : List Char → Style
  | ['(', ')'] => .term
  | [] => .operator
  | c :: _ => if c.isDigit ∨ c = '.' then .number else if isLetter c then .identifier else .operator

theorem styleOf_eq (h : IsLabel style label) : styleOf label = style := by
  cases h with
  | term => rfl
  | number head chars =>
    obtain ⟨c, hc, hnumeral⟩ := head
    have hnumeral : c.isDigit ∨ c = '.' := hnumeral
    unfold styleOf
    split
    · cases hc
      exact absurd hnumeral (by decide)
    · cases hc
    · cases hc
      rw [if_pos hnumeral]
  | identifier nonempty letters =>
    unfold styleOf
    split
    · have hletter := letters '(' List.mem_cons_self
      rw [not_isLetter_of_mem (by decide)] at hletter
      cases hletter
    · exact absurd rfl nonempty
    · next c tail _ =>
      have hletter := letters c List.mem_cons_self
      have hpoint : c ≠ '.' := by
        rintro rfl
        rw [not_isLetter_of_mem (by decide)] at hletter
        cases hletter
      rw [if_neg (not_or.2 ⟨not_isDigit_of_isLetter hletter, hpoint⟩), if_pos hletter]
  | @operator c isOperator =>
    have hall : ['+', '-', '*', '/', '=', '('].all fun c => styleOf [c] = .operator := by decide
    exact of_decide_eq_true (List.all_eq_true.1 hall c isOperator)

/-- A label has one style. -/
theorem style_eq (h : IsLabel style label) (hother : IsLabel other label) : style = other :=
  h.styleOf_eq.symm.trans hother.styleOf_eq

end IsLabel

end ArithTree
