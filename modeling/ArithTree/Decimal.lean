import ArithTree.Text.Numeral

/-!
# Exact decimals

A numeral is one or more digits with at most one point among them. It is read without rounding into
a coefficient and a scale (the number of digits behind the point), so leading zeros are lost and
trailing zeros of the fraction are kept.

The text of a decimal is positional unless its first digit would stand more than six places behind
the point; then it has one digit before the point and an exponent.
-/

namespace ArithTree

/-- The number `coefficient / 10 ^ scale`. Decimals with different scales are different, even where
they denote the same number. -/
structure Decimal where
  /-- All digits, read as one whole number. -/
  coefficient : Nat
  /-- The number of digits behind the point. -/
  scale : Nat
  deriving DecidableEq

namespace Decimal

/-- The number that a row of digits with at most one point writes; none if there is no digit. -/
def ofNumeral? (numeral : List Char) : Option Decimal :=
  let digits := numeral.filter (· ≠ '.')
  if digits = [] then none
  else some ⟨Text.natOfDigits digits, (numeral.dropWhile (· ≠ '.')).length - 1⟩

/-- The digits of the coefficient, without leading zeros; one zero for zero. -/
def digits (d : Decimal) : List Char := Nat.toDigits 10 d.coefficient

/-- Whether the text is positional: the first digit stands at most six places behind the point. -/
def isPositional (d : Decimal) : Bool := d.scale + 1 ≤ d.digits.length + 6

/-- The digits with the point before the last `scale` of them, filled up with zeros on the left. -/
def positional (d : Decimal) : List Char :=
  let padded := List.replicate (d.scale + 1 - d.digits.length) '0' ++ d.digits
  let whole := padded.length - d.scale
  if d.scale = 0 then padded else padded.take whole ++ '.' :: padded.drop whole

/-- The first digit, a point and the other digits if there are any, and the exponent of ten. -/
def scientific (d : Decimal) : List Char :=
  let exponent := d.scale + 1 - d.digits.length
  let fraction := d.digits.drop 1
  d.digits.take 1 ++ (if fraction = [] then [] else '.' :: fraction) ++
    'E' :: '-' :: Nat.toDigits 10 exponent

/-- The text of a decimal. -/
def text (d : Decimal) : String :=
  String.ofList (if d.isPositional then d.positional else d.scientific)

end Decimal

end ArithTree
