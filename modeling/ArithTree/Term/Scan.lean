import ArithTree.Term.Basic
import ArithTree.Term.Cursor
import ArithTree.Text.Symbol

/-!
# From text to term tree

A text is read into lexemes, up to its end or to the first place where no lexeme begins. The
brackets among the lexemes then nest the others: an opening bracket begins a Term below the current
one, a closing bracket returns to the Term around it. Whether operands and operators alternate is
not looked at here.

A closing bracket that has nothing to close is a fault even if the text behind it has others, since
it comes first.

* `Cursor.lex` : the lexemes from a cursor on, and why and where reading stopped.
* `Cursor.scan` : the term tree of the text from a cursor on.
-/

namespace ArithTree.Term

/-- The smallest parts of a text. -/
inductive Lexeme where
  | opening
  | closing
  | number (value : Decimal)
  | identifier (name : String)
  | operator (symbol : Char)
  deriving DecidableEq

/-- A lexeme and the place of its first character. -/
structure Placed where
  /-- The lexeme. -/
  lexeme : Lexeme
  /-- The number of characters before it. -/
  position : Nat
  deriving DecidableEq

/-- The lexemes of a text, and how reading it ended: at the end of the text, or with a failure. -/
structure Lexed where
  /-- The lexemes, left to right. -/
  lexemes : List Placed
  /-- How reading ended. -/
  outcome : Except Failure Unit
  /-- Where reading ended. -/
  cursor : Cursor

/-- One more lexeme in front. -/
def Lexed.cons (position : Nat) (lexeme : Lexeme) (lexed : Lexed) : Lexed :=
  { lexed with lexemes := ⟨lexeme, position⟩ :: lexed.lexemes }

/-- The lexemes of `text`, which begins at `position`. -/
def lexFrom (position : Nat) (text : List Char) : Lexed :=
  match text with
  | [] => ⟨[], .ok (), ⟨position, []⟩⟩
  | c :: rest =>
    if c = ' ' then lexFrom (position + 1) rest
    else if c = '(' then (lexFrom (position + 1) rest).cons position .opening
    else if c = ')' then (lexFrom (position + 1) rest).cons position .closing
    else if h : c.isDigit then
      let reading := Cursor.readNumber ⟨position, c :: rest⟩
      match reading.1 with
      | .ok d => (lexFrom reading.2.position reading.2.rest).cons position (.number d)
      | .error failure => ⟨[], .error failure, reading.2⟩
    else if h : Text.isLetter c then
      let reading := Cursor.readIdentifier ⟨position, c :: rest⟩
      match reading.1 with
      | .ok name => (lexFrom reading.2.position reading.2.rest).cons position (.identifier name)
      | .error failure => ⟨[], .error failure, reading.2⟩
    else if c ∈ Text.operatorSymbols then
      (lexFrom (position + 1) rest).cons position (.operator c)
    else
      let here : Cursor := ⟨position, c :: rest⟩
      ⟨[], .error (here.fault (.unknownSymbol c)), here⟩
termination_by text.length
decreasing_by
  · simp
  · simp
  · simp
  · rw [Cursor.rest_readNumber]
    exact Text.length_rest_lt (.inl h)
  · rw [Cursor.rest_readIdentifier, List.dropWhile_cons_of_pos h]
    exact Nat.lt_succ_of_le (List.dropWhile_suffix _).length_le
  · simp

/-- The lexemes from the cursor on. -/
def Cursor.lex (cursor : Cursor) : Lexed := lexFrom cursor.position cursor.rest

/-! ### Nesting -/

/-- A Term that is not closed yet. -/
structure OpenTerm where
  /-- The place of its opening bracket. -/
  position : Nat
  /-- Its children so far, the last one first. -/
  children : List Node

/-- One more child. -/
def OpenTerm.push (t : OpenTerm) (node : Node) : OpenTerm :=
  { t with children := node :: t.children }

/-- The finished Term. -/
def OpenTerm.close (t : OpenTerm) : Node := Node.term t.position t.children.reverse

/-- The Terms around the current place. -/
structure Nesting where
  /-- The innermost Term. -/
  inner : OpenTerm
  /-- The Terms around it, from the inside out. -/
  outer : List OpenTerm

/-- The root, before anything was read. -/
def Nesting.root : Nesting := ⟨⟨0, []⟩, []⟩

/-- One more leaf in the innermost Term. -/
def Nesting.leaf (nesting : Nesting) (kind : Kind) (payload : Payload) (position : Nat) : Nesting :=
  { nesting with inner := nesting.inner.push (.mk kind payload position []) }

/-- The nesting behind one more lexeme; the place of a closing bracket that closes nothing is the
error. -/
def Nesting.step (nesting : Nesting) (item : Placed) : Except Nat Nesting :=
  match item.lexeme with
  | .opening => .ok ⟨⟨item.position, []⟩, nesting.inner :: nesting.outer⟩
  | .closing =>
    match nesting.outer with
    | [] => .error item.position
    | next :: outer => .ok ⟨next.push nesting.inner.close, outer⟩
  | .number d => .ok (nesting.leaf .number (.decimal d) item.position)
  | .identifier name => .ok (nesting.leaf .identifier (.text name) item.position)
  | .operator c => .ok (nesting.leaf .operator (.text c.toString) item.position)

/-- The nesting behind all lexemes of a list. -/
def Nesting.run (nesting : Nesting) : List Placed → Except Nat Nesting
  | [] => .ok nesting
  | item :: items => (nesting.step item).bind fun next => next.run items

/-- The term tree of the text from the cursor on; its root has the position 0. -/
def Cursor.scan (cursor : Cursor) : Reading Node :=
  let lexed := cursor.lex
  match Nesting.root.run lexed.lexemes with
  | .error position =>
    let there := cursor.skip (position - cursor.position)
    (.error (there.fault .strayClose), there)
  | .ok nesting =>
    match lexed.outcome, nesting.outer with
    | .error failure, _ => (.error failure, lexed.cursor)
    | .ok _, _ :: _ => (.error (lexed.cursor.fault .missingClose), lexed.cursor)
    | .ok _, [] => (.ok nesting.inner.close, lexed.cursor)

/-- The term tree of a text. -/
def scan (text : String) : Except Failure Node := (Cursor.start text).scan.1

end ArithTree.Term
