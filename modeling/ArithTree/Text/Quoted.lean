import ArithTree.Text.Hex
import ArithTree.Text.Printable

/-!
# Quoted text

A text is shown between quote marks in such a way that its ends and its unprintable characters can
be seen. The mark is the single quote, or the double quote if the text holds single quotes and no
double ones. The mark and the backslash are written behind a backslash, line feed, carriage return
and tab as `\n`, `\r` and `\t`, and other unprintable code points by their number in hexadecimal.

Texts are lists of code points here, so that a text with code points that are no characters (halves
of surrogate pairs) can be shown too.
-/

namespace ArithTree.Text

/-- The mark that a text is quoted with. -/
def quoteMark (codes : List Nat) : Nat :=
  if '\''.toNat ∈ codes ∧ '"'.toNat ∉ codes then '"'.toNat else '\''.toNat

/-- A code point as it is written between two of the given marks. -/
def quotedCode (mark code : Nat) : List Char :=
  if code = mark ∨ code = '\\'.toNat then ['\\', Char.ofNat code]
  else if code = '\n'.toNat then ['\\', 'n']
  else if code = '\r'.toNat then ['\\', 'r']
  else if code = '\t'.toNat then ['\\', 't']
  else if isPrintable code then [Char.ofNat code]
  else if code < 0x100 then ['\\', 'x'] ++ hexDigits 2 code
  else if code < 0x10000 then ['\\', 'u'] ++ hexDigits 4 code
  else ['\\', 'U'] ++ hexDigits 8 code

/-- A text of code points between quote marks. -/
def quoteCodes (codes : List Nat) : List Char :=
  let mark := quoteMark codes
  Char.ofNat mark :: codes.flatMap (quotedCode mark) ++ [Char.ofNat mark]

/-- A string between quote marks. -/
def quote (s : String) : String := String.ofList (quoteCodes (s.toList.map Char.toNat))

end ArithTree.Text
