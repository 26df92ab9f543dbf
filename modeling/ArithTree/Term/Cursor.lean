import ArithTree.Fault
import ArithTree.Decimal
import ArithTree.Text.Letter
import ArithTree.Text.Numeral

/-!
# Cursors

A cursor stands in a text: it holds the number of characters before it and the characters from it
on. Reading gives a result or a failure, and the cursor afterwards; after a fault the cursor stands
at the place of the fault.

* `Cursor.readNumber` : a numeral without rounding; a second point is a fault.
* `Cursor.readIdentifier` : letters, behind which only a space, a closing bracket or the end of
  the text may come.
-/

namespace ArithTree.Term

/-- A place in a text. -/
structure Cursor where
  /-- The number of characters before the place. -/
  position : Nat
  /-- The characters from the place on. -/
  rest : List Char
  deriving DecidableEq

/-- What reading ends with, and where. -/
abbrev Reading (α : Type) := Except Failure α × Cursor

namespace Cursor

/-- The beginning of a text. -/
def start (text : String) : Cursor := ⟨0, text.toList⟩

/-- The character at the cursor. -/
def current? (cursor : Cursor) : Option Char := cursor.rest.head?

/-- The cursor `n` characters further on. -/
def skip (cursor : Cursor) (n : Nat) : Cursor := ⟨cursor.position + n, cursor.rest.drop n⟩

/-- A fault at the cursor. -/
def fault (cursor : Cursor) (cause : Cause) : Failure := .fault ⟨cause, some cursor.position⟩

/-- One character forward. -/
def advance (cursor : Cursor) : Reading Unit :=
  match cursor.rest with
  | [] => (.error (cursor.fault .endOfText), cursor)
  | _ :: rest => (.ok (), ⟨cursor.position + 1, rest⟩)

/-- Forward over spaces. -/
def skipSpaces (cursor : Cursor) : Cursor :=
  cursor.skip (cursor.rest.takeWhile (· = ' ')).length

/-- The number at the cursor. -/
def readNumber (cursor : Cursor) : Reading Decimal :=
  let (run, rest) := Text.spanNumeral false cursor.rest
  let after : Cursor := ⟨cursor.position + run.length, rest⟩
  if after.current? = some '.' then (.error (after.fault .secondPoint), after)
  else match Decimal.ofNumeral? run with
    | some d => (.ok d, after)
    | none => (.error (.breakdown .notNumeral), after)

/-- The identifier at the cursor. -/
def readIdentifier (cursor : Cursor) : Reading String :=
  let run := cursor.rest.takeWhile Text.isLetter
  let after : Cursor :=
    ⟨cursor.position + run.length, cursor.rest.dropWhile Text.isLetter⟩
  match after.current? with
  | none => (.ok (String.ofList run), after)
  | some c =>
    if c = ' ' ∨ c = ')' then (.ok (String.ofList run), after)
    else (.error (after.fault (.notInIdentifier c)), after)

theorem rest_readNumber (cursor : Cursor) :
    cursor.readNumber.2.rest = (Text.spanNumeral false cursor.rest).2 := by
  simp only [readNumber]
  split
  · rfl
  · split <;> rfl

theorem rest_readIdentifier (cursor : Cursor) :
    cursor.readIdentifier.2.rest = cursor.rest.dropWhile Text.isLetter := by
  simp only [readIdentifier]
  split
  · rfl
  · split <;> rfl

end Cursor

end ArithTree.Term
