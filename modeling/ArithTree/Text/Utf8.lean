import ArithTree.Text.Hex

/-!
# Reading UTF-8

Bytes are read strictly: every character has its shortest form, and the code points of surrogates
and those beyond U+10FFFF are refused. A fault names the bytes that could have begun a character,
up to the one that does not continue it.

* `Utf8.decode` : the characters of a row of bytes, or the first fault.
-/

namespace ArithTree.Text.Utf8

/-- Why bytes are no character. -/
inductive Cause where
  /-- No character begins with this byte. -/
  | start
  /-- The next byte does not continue the character. -/
  | continuation
  /-- The bytes end inside the character. -/
  | truncated
  deriving DecidableEq

/-- Bytes that are no character. -/
structure Fault where
  /-- The number of bytes before them. -/
  position : Nat
  /-- The first of them. -/
  first : UInt8
  /-- How many they are. -/
  count : Nat
  /-- Why they are none. -/
  cause : Cause
  deriving DecidableEq

/-- The wording of a cause. -/
def Cause.message : Cause → String
  | start => "invalid start byte"
  | continuation => "invalid continuation byte"
  | truncated => "unexpected end of data"

/-- The wording of a fault. -/
def Fault.message (fault : Fault) : String :=
  let place :=
    if fault.count = 1 then
      "byte 0x" ++ String.ofList (hexDigits 2 fault.first.toNat) ++ " in position " ++
        fault.position.repr
    else
      "bytes in position " ++ fault.position.repr ++ "-" ++
        (fault.position + fault.count - 1).repr
  "'utf-8' codec can't decode " ++ place ++ ": " ++ fault.cause.message

/-- A character of several bytes of which some have been read. -/
structure Partial where
  /-- The number of bytes before it. -/
  position : Nat
  /-- Its first byte. -/
  first : UInt8
  /-- How many of its bytes have been read. -/
  read : Nat
  /-- How many are missing, less one. -/
  missing : Nat
  /-- The least byte that may come next. -/
  low : Nat
  /-- The greatest byte that may come next. -/
  high : Nat
  /-- The bits read so far. -/
  bits : Nat

/-- What a first byte announces: how many bytes are missing, less one, the bounds of the next one
and the bits of its own. -/
def lead? (b : Nat) : Option (Nat × Nat × Nat × Nat) :=
  if 0xC2 ≤ b ∧ b ≤ 0xDF then some (0, 0x80, 0xBF, b - 0xC0)
  -- the bounds behind E0 and F0 leave out what has a shorter form, those behind ED the surrogates
  -- and those behind F4 what lies beyond U+10FFFF
  else if b = 0xE0 then some (1, 0xA0, 0xBF, 0)
  else if b = 0xED then some (1, 0x80, 0x9F, 0xD)
  else if 0xE1 ≤ b ∧ b ≤ 0xEF then some (1, 0x80, 0xBF, b - 0xE0)
  else if b = 0xF0 then some (2, 0x90, 0xBF, 0)
  else if 0xF1 ≤ b ∧ b ≤ 0xF3 then some (2, 0x80, 0xBF, b - 0xF0)
  else if b = 0xF4 then some (2, 0x80, 0x8F, 4)
  else none

/-- A fault at a character that has been begun. -/
def Partial.fault (p : Partial) (cause : Cause) : Fault := ⟨p.position, p.first, p.read, cause⟩

/-- The characters of the bytes from `position` on, inside a character if one has been begun. -/
def decodeFrom (position : Nat) (begun : Option Partial) (bytes : List UInt8) :
    Except Fault (List Char) :=
  match bytes, begun with
  | [], none => .ok []
  | [], some p => .error (p.fault .truncated)
  | b :: bytes, none =>
    if b.toNat < 0x80 then
      (decodeFrom (position + 1) none bytes).map (Char.ofNat b.toNat :: ·)
    else match lead? b.toNat with
      | none => .error ⟨position, b, 1, .start⟩
      | some (missing, low, high, bits) =>
        decodeFrom (position + 1) (some ⟨position, b, 1, missing, low, high, bits⟩) bytes
  | b :: bytes, some p =>
    if p.low ≤ b.toNat ∧ b.toNat ≤ p.high then
      let bits := 64 * p.bits + (b.toNat - 0x80)
      match p.missing with
      | 0 => (decodeFrom (position + 1) none bytes).map (Char.ofNat bits :: ·)
      | missing + 1 =>
        let pending := ⟨p.position, p.first, p.read + 1, missing, 0x80, 0xBF, bits⟩
        decodeFrom (position + 1) (some pending) bytes
    else .error (p.fault .continuation)

/-- The characters of a row of bytes. -/
def decode (bytes : List UInt8) : Except Fault (List Char) := decodeFrom 0 none bytes

/-- The bytes of a row of characters. -/
def encode (text : List Char) : List UInt8 := text.flatMap String.utf8EncodeChar

end ArithTree.Text.Utf8
