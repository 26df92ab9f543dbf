import ArithTree.Settings.Store

/-!
# Settings that may be refused

Settings that are given to be saved need not be JSON. They may hold parts and keys of other types,
whole numbers of too many digits, and lists and objects inside themselves. The first of these stops
the encoder while the file is open, so that what was written before it stays. A part or key of
another type is handled by the save, which counts as failed then; the other two break it off.

* `Refusal` : why the encoder stops.
* `Unchecked` : settings as they are given.
* `Unchecked.layout` : their pieces, in the order in which the encoder comes upon them.
* `Slot.saveUnchecked` : the file behind a save, and what the save comes to.
-/

namespace ArithTree.Settings

open Json (Piece newLine writtenString)
open Text (Utf16)

/-- Why the encoder stops. -/
inductive Refusal where
  /-- A part is of a type that has no written form. -/
  | foreignPart
  /-- A key is of a type that names no member. -/
  | foreignKey
  /-- A whole number, as a part or as a key, has too many digits. -/
  | overlong
  /-- A list or object stands inside itself. -/
  | enclosing
  deriving DecidableEq

/-- Settings as they are given. -/
inductive Unchecked where
  | null
  | bool (b : Bool)
  | integer (n : Int)
  | double (d : Double)
  | string (s : Utf16)
  | array (items : List Unchecked)
  /-- Members in their order. A key that is no scalar is `none`. -/
  | object (members : List (Option Key × Unchecked))
  /-- A part of another type. -/
  | foreign
  /-- A list or object around this place, met again. The encoder goes no further into it. -/
  | enclosing

/-- The number of digits that a whole number may have. -/
def digitLimit : Nat := 4300

/-- Whether a whole number has more digits than that. -/
def isOverlong (n : Int) : Bool := digitLimit < (Nat.toDigits 10 n.natAbs).length

/-- The name that a key is written by, or why it is not written. -/
def checkedName : Option Key → Except Refusal Utf16
  | none => .error .foreignKey
  | some (.integer n) =>
    if isOverlong n then .error .overlong else .ok (Key.integer n).written
  | some key => .ok key.written

/-! ### Layout -/

/-- What is written of a key: the separator and the name, or else what of the separator does not
wait for the name. -/
def keyPieces (separator early : List Char) (key : Option Key) : List (Piece Refusal) :=
  match checkedName key with
  | .ok name => [.text (separator ++ writtenString name ++ [':', ' '])]
  | .error refusal => [.text early, .foreign refusal]

namespace Unchecked

/-- What is written before an item. A number is written together with its separator, so that an
overlong one has none. -/
def lead (separator : List Char) : Unchecked → List (Piece Refusal)
  | .integer n => if isOverlong n then [] else [.text separator]
  | _ => [.text separator]

mutual

/-- The pieces of settings that stand at a level. -/
def layout (level : Nat) : Unchecked → List (Piece Refusal)
  | .null => [.text "null".toList]
  | .bool true => [.text "true".toList]
  | .bool false => [.text "false".toList]
  | .integer n => [if isOverlong n then .foreign .overlong else .text (Json.writtenInteger n)]
  | .double d => [.text (Json.writtenDouble d)]
  | .string s => [.text (writtenString s)]
  | .array [] => [.text "[]".toList]
  | .array (item :: items) =>
    item.lead ('[' :: newLine (level + 1)) ++ (item.layout (level + 1) ++
      layoutItems level items ++ [.text (newLine level ++ [']'])])
  | .object [] => [.text ['{', '}']]
  | .object ((key, value) :: members) =>
    keyPieces ('{' :: newLine (level + 1)) ('{' :: newLine (level + 1)) key ++
      (value.layout (level + 1) ++ layoutMembers level members ++
        [.text (newLine level ++ ['}'])])
  | .foreign => [.foreign .foreignPart]
  | .enclosing => [.foreign .enclosing]

/-- The pieces of the further items of an array. -/
def layoutItems (level : Nat) : List Unchecked → List (Piece Refusal)
  | [] => []
  | item :: items =>
    item.lead (',' :: newLine (level + 1)) ++ (item.layout (level + 1) ++ layoutItems level items)

/-- The pieces of the further members of an object. -/
def layoutMembers (level : Nat) : List (Option Key × Unchecked) → List (Piece Refusal)
  | [] => []
  | (key, value) :: members =>
    keyPieces (',' :: newLine (level + 1)) [] key ++
      (value.layout (level + 1) ++ layoutMembers level members)

end

end Unchecked

/-! ### Saving -/

/-- What a save comes to. -/
inductive Outcome where
  /-- The settings are saved. -/
  | saved
  /-- Nothing counts as saved. -/
  | nothing
  /-- The save breaks off. -/
  | broken (refusal : Refusal)
  deriving DecidableEq

/-- Whether the save handles that the encoder stops. -/
def Refusal.isHandled : Refusal → Bool
  | foreignPart | foreignKey => true
  | overlong | enclosing => false

/-- What a save comes to that writes these pieces. -/
def outcome : List (Piece Refusal) → Outcome
  | [] => .saved
  | .text _ :: pieces => outcome pieces
  | .foreign refusal :: _ => if refusal.isHandled then .nothing else .broken refusal

/-- The file behind a save, and what the save comes to. -/
def Slot.saveUnchecked (slot : Slot) (settings : Unchecked) : Slot × Outcome :=
  match slot with
  | directory => (directory, .nothing)
  | _ =>
    let pieces := settings.layout 0
    (ofText (Json.written pieces), outcome pieces)

end ArithTree.Settings
