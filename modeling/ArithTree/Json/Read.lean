import ArithTree.Json.Lexeme

/-!
# Reading JSON

Lexemes are read one by one, with a stack of the arrays and objects that are still open. Of members
of an object with equal keys the last one counts, at the place of the first.

* `Reader.run` : the value of a row of lexemes, inside what is open.
* `read` : the value of a text; none if it is no text of JSON.
-/

namespace ArithTree.Json

open Text (Utf16)

variable {α : Type}

/-- An array or object that is still open. -/
inductive Frame (α : Type) where
  /-- An array with its items so far, the last one first. -/
  | array (items : List (Value α))
  /-- An object with its members so far, and the key of the value that comes next. -/
  | member (members : Members α) (key : Utf16)

/-- What may come next. -/
inductive Phase (α : Type) where
  /-- A value. -/
  | value
  /-- The first item of an array, or its end. -/
  | firstItem
  /-- The first key of an object, or its end. -/
  | firstKey
  /-- A key of an object with the given members. -/
  | key (members : Members α)
  /-- A colon behind a key. -/
  | colon (members : Members α) (key : Utf16)
  /-- The value is complete, so that what is open goes on or ends. -/
  | after (value : Value α)

namespace Reader

/-- What may come after a lexeme, and what is open then; none if the lexeme may not come. -/
def step (lexeme : Lexeme α) :
    Phase α → List (Frame α) → Option (Phase α × List (Frame α))
  | .value, frames => beginValue lexeme frames
  | .firstItem, frames =>
    match lexeme with
    | .closeArray => some (.after (.array []), frames)
    | _ => beginValue lexeme (.array [] :: frames)
  | .firstKey, frames =>
    match lexeme with
    | .closeObject => some (.after (.object []), frames)
    | .string key => some (.colon [] key, frames)
    | _ => none
  | .key members, frames =>
    match lexeme with
    | .string key => some (.colon members key, frames)
    | _ => none
  | .colon members key, frames =>
    match lexeme with
    | .colon => some (.value, .member members key :: frames)
    | _ => none
  | .after value, frames =>
    match lexeme, frames with
    | .comma, .array items :: frames => some (.value, .array (value :: items) :: frames)
    | .closeArray, .array items :: frames =>
      some (.after (.array (value :: items).reverse), frames)
    | .comma, .member members key :: frames => some (.key (members.set key value), frames)
    | .closeObject, .member members key :: frames =>
      some (.after (.object (members.set key value)), frames)
    | _, _ => none
where
  /-- The beginning of a value. -/
  beginValue (lexeme : Lexeme α) (frames : List (Frame α)) :
      Option (Phase α × List (Frame α)) :=
    match lexeme with
    | .openArray => some (.firstItem, frames)
    | .openObject => some (.firstKey, frames)
    | .string s => some (.after (.string s), frames)
    | .scalar value => some (.after value, frames)
    | _ => none

/-- The value of a row of lexemes in a given state. -/
def run : List (Lexeme α) → Phase α → List (Frame α) → Option (Value α)
  | [], .after value, [] => some value
  | [], _, _ => none
  | lexeme :: lexemes, phase, frames =>
    (step lexeme phase frames).bind fun (phase, frames) => run lexemes phase frames

end Reader

/-- The value of a text. -/
def read (text : List Char) : Option (Value α) :=
  (lex text).bind fun lexemes => Reader.run lexemes .value []

end ArithTree.Json
