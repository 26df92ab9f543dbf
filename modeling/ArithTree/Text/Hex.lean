/-!
# Hexadecimal digits

Code numbers are written with a fixed number of lower-case hexadecimal digits and read with digits
of either case.
-/

namespace ArithTree.Text

/-- The last `width` hexadecimal digits of `n`, the highest first. -/
def hexDigits : (width n : Nat) → List Char
  | 0, _ => []
  | width + 1, n => hexDigits width (n / 16) ++ [(n % 16).digitChar]

/-- The value of one hexadecimal digit. -/
def hexValue? (c : Char) : Option Nat :=
  if c.isDigit then some (c.toNat - '0'.toNat)
  else if 'a' ≤ c ∧ c ≤ 'f' then some (c.toNat - 'a'.toNat + 10)
  else if 'A' ≤ c ∧ c ≤ 'F' then some (c.toNat - 'A'.toNat + 10)
  else none

end ArithTree.Text
