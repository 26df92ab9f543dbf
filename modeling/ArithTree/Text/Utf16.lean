/-!
# Texts of 16-bit units

A text of 16-bit units need not be a text of characters: a code point beyond U+FFFF is a pair of
units, and a half of such a pair may stand alone.

* `Utf16.codePoints` : the code points, where each proper pair is one and a lone half is one too.
-/

namespace ArithTree.Text

/-- A text of 16-bit units. -/
structure Utf16 where
  /-- The units. -/
  units : List UInt16
  deriving DecidableEq

namespace Utf16

/-- The units of a character. -/
def ofChar (c : Char) : List UInt16 :=
  let code := c.toNat
  if code < 0x10000 then [code.toUInt16]
  else [(0xD800 + (code - 0x10000) / 0x400).toUInt16, (0xDC00 + (code - 0x10000) % 0x400).toUInt16]

/-- The text of a string. -/
def ofString (s : String) : Utf16 := ⟨s.toList.flatMap ofChar⟩

/-- Whether a unit is the first half of a pair. -/
def isHigh (unit : UInt16) : Bool := 0xD800 ≤ unit && unit < 0xDC00

/-- Whether a unit is the second half of a pair. -/
def isLow (unit : UInt16) : Bool := 0xDC00 ≤ unit && unit < 0xE000

/-- Splits units into pairs and single ones. -/
def groups : List UInt16 → List (List UInt16)
  | [] => []
  | [unit] => [[unit]]
  | high :: low :: units =>
    if isHigh high && isLow low then [high, low] :: groups units
    else [high] :: groups (low :: units)

/-- The code point of a pair or of a single unit. -/
def groupCode : List UInt16 → Nat
  | [high, low] => 0x10000 + 0x400 * (high.toNat - 0xD800) + (low.toNat - 0xDC00)
  | unit :: _ => unit.toNat
  | [] => 0

/-- The code points. -/
def codePoints (t : Utf16) : List Nat := (groups t.units).map groupCode

/-- The texts of the single code points. -/
def characters (t : Utf16) : List Utf16 := (groups t.units).map Utf16.mk

/-- The string, if no half of a pair stands alone. -/
def toString (t : Utf16) : String := String.ofList (t.codePoints.map Char.ofNat)

end Utf16

end ArithTree.Text
