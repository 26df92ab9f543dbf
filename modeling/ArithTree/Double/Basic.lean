/-!
# Double precision numbers

A number of double precision is a significand of at most 53 bits, scaled by a power of two, with a
sign; or an infinity; or undefined. Decimals are read into the nearest such number, a tie going to
the even significand, by exact arithmetic on whole numbers.

* `Double.ofDecimal` : the double nearest to a decimal.
* `Double.integer?` : the whole number that a double is, if it is one.
-/

namespace ArithTree

/-- A number of double precision. Each has one form: the significand has 53 bits unless the
exponent is the least one, which zero has too. -/
inductive Double where
  /-- The number `significand * 2 ^ exponent`. -/
  | finite (negative : Bool) (significand : Nat) (exponent : Int)
  | infinite (negative : Bool)
  | undefined
  deriving DecidableEq

namespace Double

/-- The bound of the significands. -/
def significandBound : Nat := Nat.pow 2 53

/-- The least exponent. -/
def leastExponent : Int := -1074

/-- The greatest exponent. -/
def greatestExponent : Int := 971

/-- Zero. -/
def zero (negative : Bool) : Double := finite negative 0 leastExponent

/-- The nearest whole number to `num / den`, the even one of two. -/
def roundDiv (num den : Nat) : Nat :=
  let whole := num / den
  let twice := 2 * (num % den)
  if den < twice ∨ (den = twice ∧ whole % 2 = 1) then whole + 1 else whole

/-- `num / den / 2 ^ exponent` as a quotient of whole numbers. -/
def scaled (num den : Nat) (exponent : Int) : Nat × Nat :=
  (num * Nat.pow 2 (-exponent).toNat, den * Nat.pow 2 exponent.toNat)

/-- The exponent with which `num / den` has a significand of 53 bits, or the least one. -/
def exponentOf (num den : Nat) : Int :=
  -- with this exponent the quotient has 53 or 54 bits, or fewer if it is the least one
  let guess : Int := max ((num.log2 : Int) - den.log2 - 53) leastExponent
  let (n, d) := scaled num den guess
  if significandBound ≤ n / d then guess + 1 else guess

/-- The double nearest to `num / den`, for positive numbers. -/
def ofRatio (negative : Bool) (num den : Nat) : Double :=
  let exponent := exponentOf num den
  let (n, d) := scaled num den exponent
  let significand := roundDiv n d
  let (significand, exponent) :=
    -- rounding up may have made one bit more
    if significand = significandBound then (significandBound / 2, exponent + 1)
    else (significand, exponent)
  if greatestExponent < exponent then infinite negative
  else if significand = 0 then zero negative
  else finite negative significand exponent

/-- The double nearest to `coefficient * 10 ^ exponent`. Numbers of 10 ^ 310 and more are beyond all
doubles, and those below 10 ^ -330 are nearest to zero. -/
def ofDecimal (negative : Bool) (coefficient : Nat) (exponent : Int) : Double :=
  let magnitude : Int := (Nat.toDigits 10 coefficient).length + exponent
  if coefficient = 0 ∨ magnitude < -330 then zero negative
  else if 310 < magnitude then infinite negative
  else
    ofRatio negative (coefficient * Nat.pow 10 exponent.toNat) (Nat.pow 10 (-exponent).toNat)

/-- The whole number that a double is, if it is one. -/
def integer? : Double → Option Int
  | finite negative significand exponent =>
    let divisor := Nat.pow 2 (-exponent).toNat
    if significand % divisor = 0 then
      let magnitude : Nat := significand / divisor * Nat.pow 2 exponent.toNat
      some (if negative then -magnitude else magnitude)
    else none
  | _ => none

end Double

end ArithTree
