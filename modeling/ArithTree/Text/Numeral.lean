/-!
# Digits and numerals

A text may begin with a row of digits with at most one point among them. A row that is cut off by a
second point is no numeral; which fault that is, its readers say.

* `natOfDigits` : the number that a row of digits writes.
* `spanNumeral` : the longest such row at the beginning of a text, and the text behind it.
* `spanNumeral_append` : nothing is lost.
* `length_rest_lt` : a text that begins with a digit gets shorter.
-/

namespace ArithTree.Text

/-- The whole number that a row of digits writes. -/
def natOfDigits (digits : List Char) : Nat :=
  digits.foldl (fun n c => 10 * n + (c.toNat - '0'.toNat)) 0

/-- The longest row of digits, with one point among them if no point came before, and the text
behind it. -/
def spanNumeral (pointBefore : Bool) : List Char → List Char × List Char
  | [] => ([], [])
  | c :: rest =>
    if c.isDigit then
      let (run, behind) := spanNumeral pointBefore rest
      (c :: run, behind)
    else if c = '.' ∧ pointBefore = false then
      let (run, behind) := spanNumeral true rest
      (c :: run, behind)
    else ([], c :: rest)

theorem spanNumeral_append (pointBefore : Bool) (text : List Char) :
    (spanNumeral pointBefore text).1 ++ (spanNumeral pointBefore text).2 = text := by
  fun_induction spanNumeral pointBefore text with
  | case1 => rfl
  | case2 _ c rest _ run behind h ih => simpa [h] using ih
  | case3 _ c rest _ _ run behind h ih => simpa [h] using ih
  | case4 => rfl

theorem length_rest_le (pointBefore : Bool) (text : List Char) :
    (spanNumeral pointBefore text).2.length ≤ text.length := by
  have h := congrArg List.length (spanNumeral_append pointBefore text)
  rw [List.length_append] at h
  omega

theorem length_rest_lt {c : Char} {rest : List Char} (h : c.isDigit ∨ c = '.') :
    (spanNumeral false (c :: rest)).2.length < (c :: rest).length := by
  rw [spanNumeral]
  split
  · exact Nat.lt_succ_of_le (length_rest_le false rest)
  · next hc =>
    rw [if_pos ⟨h.resolve_left hc, rfl⟩]
    exact Nat.lt_succ_of_le (length_rest_le true rest)

end ArithTree.Text
