import ArithTree.Double.Basic

/-!
# Shortest decimals

The text of a double has the fewest digits that read back to the same double, and of several such
decimals the one nearest to it. The digits are found by exact arithmetic: the numbers that read back
form an interval around the double, and the grids of the multiples of the powers of ten are tried
from the coarsest to the finest.

The text is positional if the first digit stands for a power of ten from -4 to 15, with at least
one digit on either side of the point; else it has an exponent of at least two digits with a sign.
-/

namespace ArithTree.Double

/-- A decimal number `coefficient * 10 ^ exponent`. -/
structure GridPoint where
  /-- How many steps of the grid. -/
  coefficient : Nat
  /-- The power of ten that is the step of the grid. -/
  exponent : Int

/-- An interval of numbers around a double, all in units of one power of two. -/
structure Interval where
  /-- The numbers that lie above `low / unit` and below `high / unit` are in it. -/
  low : Nat
  /-- The double itself is `middle / unit`. -/
  middle : Nat
  /-- The upper end. -/
  high : Nat
  /-- The power of two of the unit. -/
  exponent : Int
  /-- The ends are in it too. -/
  closed : Bool

/-- The numbers that read back to a double: half a step to either side, where the step below a power
of two is half as wide. -/
def intervalOf (significand : Nat) (exponent : Int) : Interval where
  low := if significand = significandBound / 2 ∧ leastExponent < exponent
    then 4 * significand - 1 else 4 * significand - 2
  middle := 4 * significand
  high := 4 * significand + 2
  exponent := exponent - 2
  closed := significand % 2 = 0

/-- The multiple of `10 ^ grid` in the interval that is nearest to its middle, the even one of two;
none if there is none. -/
def Interval.nearest? (i : Interval) (grid : Int) : Option GridPoint :=
  let up := Nat.pow 2 i.exponent.toNat * Nat.pow 10 (-grid).toNat
  let down := Nat.pow 2 (-i.exponent).toNat * Nat.pow 10 grid.toNat
  let inside (c : Nat) : Bool :=
    if i.closed then i.low * up ≤ c * down && c * down ≤ i.high * up
    else i.low * up < c * down && c * down < i.high * up
  let below := i.middle * up / down
  let gapBelow := i.middle * up - below * down
  let gapAbove := (below + 1) * down - i.middle * up
  let belowIsNearer := gapBelow < gapAbove || (gapBelow == gapAbove && below % 2 == 0)
  match inside below, inside (below + 1) with
  | true, true => some ⟨if belowIsNearer then below else below + 1, grid⟩
  | true, false => some ⟨below, grid⟩
  | false, true => some ⟨below + 1, grid⟩
  | false, false => none

/-- The powers of ten of the grids, the coarsest first. -/
def grids : List Int := (List.range 634).map fun (i : Nat) => 309 - (i : Int)

/-- The shortest decimal that reads back to a positive double. -/
def shortest (significand : Nat) (exponent : Int) : GridPoint :=
  let interval := intervalOf significand exponent
  (grids.findSome? interval.nearest?).getD ⟨significand, exponent⟩

/-! ### Layout -/

/-- The digits of a number, positional or with an exponent. -/
def layout (point : GridPoint) : List Char :=
  let digits := Nat.toDigits 10 point.coefficient
  let lead : Int := point.exponent + digits.length - 1
  if -4 ≤ lead ∧ lead < 0 then
    -- all digits are behind the point
    ['0', '.'] ++ List.replicate (-lead - 1).toNat '0' ++ digits
  else if 0 ≤ lead ∧ lead < 16 then
    -- the point is among the digits, or behind them and some zeros
    let whole := lead.toNat + 1
    let padded := digits ++ List.replicate (whole - digits.length) '0'
    let fraction := padded.drop whole
    padded.take whole ++ '.' :: (if fraction = [] then ['0'] else fraction)
  else
    let fraction := digits.drop 1
    let power := Nat.toDigits 10 lead.natAbs
    digits.take 1 ++ (if fraction = [] then [] else '.' :: fraction) ++
      ['e', if lead < 0 then '-' else '+'] ++ List.replicate (2 - power.length) '0' ++ power

/-- The text of a finite double. -/
def finiteText (negative : Bool) (significand : Nat) (exponent : Int) : List Char :=
  (if negative then ['-'] else []) ++
    (if significand = 0 then ['0', '.', '0'] else layout (shortest significand exponent))

/-- The text of a double, with the given words for infinity and for the undefined number. -/
def textWith (infinity undefinedNumber : String) : Double → List Char
  | finite negative significand exponent => finiteText negative significand exponent
  | infinite negative => (if negative then ['-'] else []) ++ infinity.toList
  | undefined => undefinedNumber.toList

/-- The text of a double. -/
def text (d : Double) : String := String.ofList (d.textWith "inf" "nan")

end ArithTree.Double
