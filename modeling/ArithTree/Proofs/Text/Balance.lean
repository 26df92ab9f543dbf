import Mathlib.Data.List.Induction
import ArithTree.Proofs.Text.Brackets

/-!
# Balance and open brackets

Reading a text from the left, the brackets that are open at some point divide what was read into
pieces in which all brackets match. From this division one sees which brackets are never closed,
and that brackets which match are balanced in the sense of counting.

* `IsBalanced` : balance by counting.
* `Opened` : the brackets that are open behind a piece of text.
* `Opened.neverClosed`, `Opened.le_of_neverClosed` : the innermost of them, at the end of a text.
-/

namespace ArithTree.Text

/-! ### Counting -/

/-- No beginning of a text closes more brackets than it opens, and the whole closes as many. -/
structure IsBalanced (s : List Char) : Prop where
  beginnings : ∀ t, t <+: s → t.count ')' ≤ t.count '('
  whole : s.count ')' = s.count '('

theorem IsBalanced.append {s t : List Char} (h : IsBalanced s) (ht : IsBalanced t) :
    IsBalanced (s ++ t) where
  beginnings := by
    intro u hu
    rcases List.prefix_or_prefix_of_prefix hu (List.prefix_append s t) with hu' | ⟨rest, rfl⟩
    · exact h.beginnings u hu'
    · have hrest := ht.beginnings rest ((List.prefix_append_right_inj s).1 hu)
      rw [List.count_append, List.count_append, h.whole]
      exact Nat.add_le_add_left hrest _
  whole := by rw [List.count_append, List.count_append, h.whole, ht.whole]

theorem isBalanced_of_unbracketed {s : List Char} (h : Unbracketed s) : IsBalanced s where
  beginnings := by
    intro t ht
    rw [List.count_eq_zero.2 fun hmem => (h _ (ht.subset hmem)).2 rfl]
    exact Nat.zero_le _
  whole := by
    rw [List.count_eq_zero.2 fun hmem => (h _ hmem).2 rfl,
      List.count_eq_zero.2 fun hmem => (h _ hmem).1 rfl]

theorem IsBalanced.pair {s : List Char} (h : IsBalanced s) : IsBalanced ('(' :: s ++ [')']) where
  beginnings := by
    intro t ht
    rcases List.prefix_concat_iff.1 ht with rfl | ht
    · simp [List.count_append, h.whole]
    · rcases List.prefix_cons_iff.1 ht with rfl | ⟨u, rfl, hu⟩
      · exact Nat.le_refl 0
      · rw [List.count_cons_self, List.count_cons_of_ne (by decide)]
        exact Nat.le_succ_of_le (h.beginnings u hu)
  whole := by simp [List.count_append, h.whole]

theorem Matched.isBalanced {s : List Char} (h : Matched s) : IsBalanced s := by
  induction h with
  | nil => exact isBalanced_of_unbracketed nofun
  | @other c rest notOpening notClosing _ ih =>
    have hc : Unbracketed [c] := List.forall_mem_singleton.2 ⟨notOpening, notClosing⟩
    exact (isBalanced_of_unbracketed hc).append ih
  | @pair inside rest _ _ ihInside ih =>
    have := ihInside.pair.append ih
    rwa [List.append_assoc, List.singleton_append] at this

theorem Matched.unclosed {s : List Char} (h : Matched s) (n : Nat) : unclosed n s = n := by
  induction h generalizing n with
  | nil => rfl
  | other notOpening notClosing _ ih => rw [unclosed_other notOpening notClosing, ih]
  | pair _ _ ihInside ih =>
    rw [List.cons_append, unclosed_opening, unclosed_append, ihInside, unclosed_closing, ih,
      Nat.add_sub_cancel]

/-- Every opening bracket is closed or never closed, and every closing one closes something or finds
nothing to close. -/
theorem count_opening_add_unopened (n : Nat) (s : List Char) :
    n + s.count '(' + unopened n s = s.count ')' + unclosed n s := by
  induction s generalizing n with
  | nil => simp [unclosed, unopened]
  | cons c s ih =>
    by_cases hopen : c = '('
    · subst hopen
      have := ih (n + 1)
      rw [unclosed_opening, unopened_opening, List.count_cons_self,
        List.count_cons_of_ne (by decide)]
      omega
    by_cases hclose : c = ')'
    · subst hclose
      have := ih (n - 1)
      rw [unclosed_closing, unopened_closing, List.count_cons_self,
        List.count_cons_of_ne (by decide)]
      split <;> omega
    · rw [unclosed_other hopen hclose, unopened_other hopen hclose, List.count_cons_of_ne hopen,
        List.count_cons_of_ne hclose]
      exact ih n

/-! ### Open brackets -/

/-- The places of the brackets that are open behind a piece of text, the innermost first. -/
inductive Opened : List Nat → List Char → Prop where
  | nil {s : List Char} (matched : Matched s) : Opened [] s
  | cons {opened : List Nat} {s inside : List Char} (before : Opened opened s)
    (matched : Matched inside) : Opened (s.length :: opened) (s ++ '(' :: inside)

namespace Opened

variable {opened : List Nat} {q : Nat} {s t : List Char}

theorem append (h : Opened opened s) (ht : Matched t) : Opened opened (s ++ t) := by
  cases h with
  | nil matched => exact .nil (matched.append ht)
  | cons before matched =>
    rw [List.append_assoc, List.cons_append]
    exact .cons before (matched.append ht)

theorem opening (h : Opened opened s) : Opened (s.length :: opened) (s ++ ['(']) :=
  .cons h .nil

theorem closing (h : Opened (q :: opened) s) : Opened opened (s ++ [')']) := by
  cases h with
  | @cons _ s inside before matched =>
    have hpair : Matched ('(' :: inside ++ [')']) := .pair matched .nil
    rw [List.append_assoc]
    exact before.append hpair

theorem unclosed_eq (h : Opened opened s) : unclosed 0 s = opened.length := by
  induction h with
  | nil matched => exact matched.unclosed 0
  | cons _ matched ih =>
    rw [unclosed_append, ih, unclosed_opening, matched.unclosed, List.length_cons]

theorem count_eq (h : Opened opened s) : s.count '(' = s.count ')' + opened.length := by
  induction h with
  | nil matched => exact matched.isBalanced.whole.symm
  | cons _ matched ih =>
    rw [List.count_append, List.count_append, List.count_cons_self,
      List.count_cons_of_ne (by decide), ih, matched.isBalanced.whole, List.length_cons]
    omega

end Opened

/-- Behind every text that never closes too much, some brackets are open. -/
theorem exists_opened {s : List Char} (h : ∀ t, t <+: s → t.count ')' ≤ t.count '(') :
    ∃ opened, Opened opened s := by
  induction s using List.reverseRecOn with
  | nil => exact ⟨[], .nil .nil⟩
  | append_singleton s c ih =>
    obtain ⟨opened, hopened⟩ := ih fun t ht => h t (ht.trans (List.prefix_append s [c]))
    by_cases hopening : c = '('
    · subst hopening
      exact ⟨_, hopened.opening⟩
    by_cases hclosing : c = ')'
    · subst hclosing
      cases opened with
      | nil =>
        have hwhole := h _ (List.prefix_refl _)
        rw [List.count_append, List.count_append, hopened.count_eq] at hwhole
        exact absurd hwhole (by simp)
      | cons q opened => exact ⟨opened, hopened.closing⟩
    · exact ⟨opened, hopened.append (.other hopening hclosing .nil)⟩

/-- Brackets that are balanced match. -/
theorem IsBalanced.matched {s : List Char} (h : IsBalanced s) : Matched s := by
  obtain ⟨opened, hopened⟩ := exists_opened h.beginnings
  have hcount := hopened.count_eq
  rw [h.whole, Nat.left_eq_add, List.length_eq_zero_iff] at hcount
  subst hcount
  cases hopened with
  | nil matched => exact matched

/-! ### Brackets that are never closed -/

theorem exists_split {text : List Char} {p : Nat} {c : Char} (h : text[p]? = some c) :
    ∃ before behind, text = before ++ c :: behind ∧ before.length = p := by
  obtain ⟨hlt, rfl⟩ := List.getElem?_eq_some_iff.1 h
  refine ⟨text.take p, text.drop (p + 1), ?_, List.length_take_of_le (Nat.le_of_lt hlt)⟩
  rw [List.getElem_cons_drop, List.take_append_drop]

theorem drop_behind (before : List Char) (c : Char) (behind : List Char) :
    (before ++ c :: behind).drop (before.length + 1) = behind := by
  rw [← List.drop_drop, List.drop_left, List.drop_one, List.tail_cons]

/-- At the place `p` stands an opening bracket, and no closing one behind it matches it. -/
def NeverClosed (text : List Char) (p : Nat) : Prop :=
  text[p]? = some '(' ∧
    ∀ inside behind, text.drop (p + 1) = inside ++ ')' :: behind → ¬ Matched inside

/-- An opening bracket of a text that matches is closed. -/
theorem Matched.exists_closing {s before behind : List Char} (h : Matched s)
    (hs : s = before ++ '(' :: behind) :
    ∃ inside rest, behind = inside ++ ')' :: rest ∧ Matched inside := by
  induction h generalizing before behind with
  | nil => simp at hs
  | other notOpening _ _ ih =>
    cases before with
    | nil => exact absurd (List.cons.inj hs).1 notOpening
    | cons c before => exact ih (List.cons.inj hs).2
  | @pair inside rest within _ ihInside ih =>
    cases before with
    | nil => exact ⟨inside, rest, (List.cons.inj hs).2.symm, within⟩
    | cons c before =>
      rcases List.append_eq_append_iff.1 (List.cons.inj hs).2 with
        ⟨more, rfl, hmore⟩ | ⟨more, rfl, hmore⟩
      · cases more with
        | nil => exact absurd (List.cons.inj hmore).1 (by decide)
        | cons d more => exact ih (List.cons.inj hmore).2
      · cases more with
        | nil => exact absurd (List.cons.inj hmore).1 (by decide)
        | cons d more =>
          obtain ⟨rfl, rfl⟩ := List.cons.inj hmore
          obtain ⟨nested, last, rfl, hnested⟩ := ihInside rfl
          exact ⟨nested, last ++ ')' :: rest, List.append_assoc nested (')' :: last) _, hnested⟩

theorem Matched.not_neverClosed {text : List Char} (h : Matched text) (p : Nat) :
    ¬ NeverClosed text p := by
  rintro ⟨hopening, hnone⟩
  obtain ⟨before, behind, rfl, rfl⟩ := exists_split hopening
  obtain ⟨inside, rest, rfl, hinside⟩ := h.exists_closing rfl
  exact hnone inside rest (drop_behind before '(' _) hinside

namespace Opened

variable {opened : List Nat} {q : Nat} {s : List Char}

/-- The innermost open bracket is never closed in what was read. -/
theorem neverClosed (h : Opened (q :: opened) s) : NeverClosed s q := by
  cases h with
  | @cons _ s inside _ matched =>
    refine ⟨by simp, fun within behind hdrop hwithin => ?_⟩
    rw [drop_behind] at hdrop
    subst hdrop
    -- Up to the closing bracket, the inside would close more brackets than it opens.
    have hle := matched.isBalanced.beginnings (within ++ [')']) (by simp)
    rw [List.count_append, List.count_append, hwithin.isBalanced.whole] at hle
    exact absurd hle (by simp)

/-- No bracket that was opened later is never closed. -/
theorem le_of_neverClosed (h : Opened (q :: opened) s) {p : Nat} (hp : NeverClosed s p) :
    p ≤ q := by
  obtain ⟨hopening, hnone⟩ := hp
  obtain ⟨before, behind, hs, rfl⟩ := exists_split hopening
  cases h with
  | @cons _ s inside _ matched =>
    refine Nat.le_of_not_lt fun hlt => ?_
    rcases List.append_eq_append_iff.1 hs with ⟨more, rfl, hmore⟩ | ⟨more, rfl, hmore⟩
    · cases more with
      | nil => simp at hlt
      | cons c more =>
        obtain ⟨within, rest, rfl, hwithin⟩ := matched.exists_closing (List.cons.inj hmore).2
        refine hnone within rest ?_ hwithin
        rw [hs, drop_behind]
    · rw [List.length_append] at hlt
      omega

end Opened

end ArithTree.Text
