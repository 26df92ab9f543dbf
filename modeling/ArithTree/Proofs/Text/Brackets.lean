/-!
# Brackets of a text

Brackets match from the inside out, whatever stands between them. A closing bracket that finds
nothing to close is passed over.

* `unclosed` : the number of opening brackets that are never closed.
* `unopened` : the number of closing brackets that find nothing to close.
* `closed` : a text with these brackets closed at its end.
* `Matched` : texts all of whose brackets match.
-/

namespace ArithTree.Text

/-- The number of opening brackets that are not closed, in a text and among the `opened` ones before
it. -/
def unclosed (opened : Nat) : List Char → Nat
  | [] => opened
  | c :: rest =>
    if c = '(' then unclosed (opened + 1) rest
    else if c = ')' then unclosed (opened - 1) rest
    else unclosed opened rest

theorem unclosed_opening (n : Nat) (rest : List Char) :
    unclosed n ('(' :: rest) = unclosed (n + 1) rest := by
  rw [unclosed, if_pos rfl]

theorem unclosed_closing (n : Nat) (rest : List Char) :
    unclosed n (')' :: rest) = unclosed (n - 1) rest := by
  rw [unclosed, if_neg (by decide), if_pos rfl]

theorem unclosed_other {c : Char} (hopen : c ≠ '(') (hclose : c ≠ ')') (n : Nat)
    (rest : List Char) : unclosed n (c :: rest) = unclosed n rest := by
  rw [unclosed, if_neg hopen, if_neg hclose]

theorem unclosed_append (n : Nat) (s t : List Char) :
    unclosed n (s ++ t) = unclosed (unclosed n s) t := by
  induction s generalizing n with
  | nil => rfl
  | cons c s ih =>
    rw [List.cons_append, unclosed, unclosed]
    split
    · exact ih _
    · split
      · exact ih _
      · exact ih _

/-- The number of closing brackets that find nothing to close, in a text that stands behind `opened`
open brackets. -/
def unopened (opened : Nat) : List Char → Nat
  | [] => 0
  | c :: rest =>
    if c = '(' then unopened (opened + 1) rest
    else if c = ')' then (if opened = 0 then 1 else 0) + unopened (opened - 1) rest
    else unopened opened rest

theorem unopened_opening (n : Nat) (rest : List Char) :
    unopened n ('(' :: rest) = unopened (n + 1) rest := by
  rw [unopened, if_pos rfl]

theorem unopened_closing (n : Nat) (rest : List Char) :
    unopened n (')' :: rest) = (if n = 0 then 1 else 0) + unopened (n - 1) rest := by
  rw [unopened, if_neg (by decide), if_pos rfl]

theorem unopened_other {c : Char} (hopen : c ≠ '(') (hclose : c ≠ ')') (n : Nat)
    (rest : List Char) : unopened n (c :: rest) = unopened n rest := by
  rw [unopened, if_neg hopen, if_neg hclose]

/-- A text with its open brackets closed at the end. -/
def closed (s : List Char) : List Char := s ++ List.replicate (unclosed 0 s) ')'

/-- A text without brackets. -/
def Unbracketed (s : List Char) : Prop := ∀ c ∈ s, c ≠ '(' ∧ c ≠ ')'

theorem unclosed_unbracketed {s : List Char} (h : Unbracketed s) (n : Nat) : unclosed n s = n := by
  induction s with
  | nil => rfl
  | cons c s ih =>
    obtain ⟨hopen, hclose⟩ := h c List.mem_cons_self
    rw [unclosed_other hopen hclose]
    exact ih fun d hd => h d (List.mem_cons_of_mem _ hd)

/-! ### Pairs -/

/-- A text all of whose brackets match. -/
inductive Matched : List Char → Prop where
  | nil : Matched []
  | other {c : Char} {rest : List Char} (notOpening : c ≠ '(') (notClosing : c ≠ ')')
    (more : Matched rest) : Matched (c :: rest)
  | pair {inside rest : List Char} (within : Matched inside) (more : Matched rest) :
    Matched ('(' :: inside ++ ')' :: rest)

theorem Matched.append {s t : List Char} (h : Matched s) (ht : Matched t) : Matched (s ++ t) := by
  induction h with
  | nil => exact ht
  | other notOpening notClosing _ ih => exact .other notOpening notClosing ih
  | pair within _ _ ih =>
    rw [List.append_assoc, List.cons_append]
    exact .pair within ih

theorem matched_of_unbracketed {s : List Char} (h : Unbracketed s) : Matched s := by
  induction s with
  | nil => exact .nil
  | cons c s ih =>
    obtain ⟨hopen, hclose⟩ := h c List.mem_cons_self
    exact .other hopen hclose (ih fun d hd => h d (List.mem_cons_of_mem _ hd))

end ArithTree.Text
