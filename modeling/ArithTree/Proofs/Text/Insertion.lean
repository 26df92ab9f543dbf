import ArithTree.Proofs.Text.Boundary

/-!
# One more space

A text gets one more space at a place, which moves what stands at the place or behind it.

* `withSpace` : the text with the space.
* `moved` : the place of what stood at a place before.
-/

namespace ArithTree.Text

/-- The characters with one more space at a place, or at the end if there are fewer of them. -/
def withSpace (i : Nat) (s : List Char) : List Char := s.take i ++ ' ' :: s.drop i

/-- The text with one more space at a place. -/
def insertSpace (i : Nat) (text : String) : String := String.ofList (withSpace i text.toList)

/-- The place, behind one more space at `i`, of what stood at `p` before. -/
def moved (i : Nat) (p : Int) : Int := if i ≤ p then p + 1 else p

variable {i : Nat} {s : List Char}

theorem withSpace_zero (s : List Char) : withSpace 0 s = ' ' :: s := rfl

theorem withSpace_nil (i : Nat) : withSpace i [] = [' '] := by
  rw [withSpace, List.take_nil, List.drop_nil, List.nil_append]

/-- A space that is not inside of the first characters leaves them as they are. -/
theorem withSpace_append (h : s.length ≤ i) (rest : List Char) :
    withSpace i (s ++ rest) = s ++ withSpace (i - s.length) rest := by
  rw [withSpace, List.take_append, List.drop_append, List.take_of_length_le h,
    List.drop_of_length_le h, List.nil_append, List.append_assoc]
  rfl

/-- A space behind a character that stands at `p`. -/
theorem withSpace_cons {p : Nat} (h : p < i) (c : Char) (rest : List Char) :
    withSpace (i - p) (c :: rest) = c :: withSpace (i - (p + 1)) rest := by
  rw [show i - p = i - (p + 1) + 1 by omega]
  rfl

/-- The first character is the space or what it was. -/
theorem head?_withSpace (i : Nat) (s : List Char) :
    (withSpace i s).head? = some ' ' ∨ (withSpace i s).head? = s.head? := by
  cases i with
  | zero => exact .inl rfl
  | succ i =>
    cases s with
    | nil => exact .inl rfl
    | cons c s => exact .inr rfl

theorem EndsNumeral.withSpace (h : EndsNumeral s) (i : Nat) : EndsNumeral (withSpace i s) := by
  rcases head?_withSpace i s with hspace | hsame
  · rw [EndsNumeral, hspace]
    exact (endsNumeral_space : EndsNumeral [' '])
  · rwa [EndsNumeral, hsame]

theorem moved_of_le {p : Int} (h : i ≤ p) : moved i p = p + 1 := if_pos h

theorem moved_of_lt {p : Int} (h : p < i) : moved i p = p := if_neg (Int.not_le.2 h)

end ArithTree.Text
