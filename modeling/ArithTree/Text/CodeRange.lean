/-!
# Ranges of code points

A property of characters is a table of ranges of code points, listed upwards. `inRanges` looks a
code point up and stops at the first range that lies beyond it.
-/

namespace ArithTree.Text

/-- Whether `n` lies in one of the ranges, which are listed upwards. -/
def inRanges (n : Nat) : List (Nat × Nat) → Bool
  | [] => false
  | (lo, hi) :: ranges => if n < lo then false else n ≤ hi || inRanges n ranges

end ArithTree.Text
