import ArithTree.Text.Utf8
import Mathlib.Tactic.SplitIfs

/-!
# What is written in UTF-8 is read back

The bytes of a character are read as that character, whatever comes behind them; so reading undoes
writing for every text.

* `Utf8.decode_encode` : the bytes of a text are read as the text.
-/

namespace ArithTree.Text.Utf8

variable {position n : Nat} {p : Partial} {bytes : List UInt8}

/-! ### One byte -/

theorem decodeFrom_single (hn : n < 0x80) :
    decodeFrom position none (UInt8.ofNat n :: bytes) =
      (decodeFrom (position + 1) none bytes).map (Char.ofNat n :: ·) := by
  rw [decodeFrom, UInt8.toNat_ofNat_of_lt' (show _ < 256 by omega), if_pos hn]

theorem decodeFrom_lead {missing low high bits : Nat} (hn : 0x80 ≤ n ∧ n < 0x100)
    (h : lead? n = some (missing, low, high, bits)) :
    decodeFrom position none (UInt8.ofNat n :: bytes) =
      decodeFrom (position + 1)
        (some ⟨position, UInt8.ofNat n, 1, missing, low, high, bits⟩) bytes := by
  rw [decodeFrom, UInt8.toNat_ofNat_of_lt' (show _ < 256 by omega), if_neg (by omega), h]

theorem decodeFrom_last (hn : n < 0x40) (hlow : p.low ≤ n + 0x80) (hhigh : n + 0x80 ≤ p.high)
    (hp : p.missing = 0) :
    decodeFrom position (some p) (UInt8.ofNat (n + 0x80) :: bytes) =
      (decodeFrom (position + 1) none bytes).map (Char.ofNat (64 * p.bits + n) :: ·) := by
  rw [decodeFrom, UInt8.toNat_ofNat_of_lt' (show _ < 256 by omega), if_pos ⟨hlow, hhigh⟩, hp,
    Nat.add_sub_cancel]

theorem decodeFrom_middle {missing : Nat} (hn : n < 0x40) (hlow : p.low ≤ n + 0x80)
    (hhigh : n + 0x80 ≤ p.high) (hp : p.missing = missing + 1) :
    decodeFrom position (some p) (UInt8.ofNat (n + 0x80) :: bytes) =
      decodeFrom (position + 1)
        (some ⟨p.position, p.first, p.read + 1, missing, 0x80, 0xBF, 64 * p.bits + n⟩) bytes := by
  rw [decodeFrom, UInt8.toNat_ofNat_of_lt' (show _ < 256 by omega), if_pos ⟨hlow, hhigh⟩, hp,
    Nat.add_sub_cancel]

/-! ### First bytes -/

theorem lead?_two {q : Nat} (h : 2 ≤ q ∧ q < 32) : lead? (q + 192) = some (0, 0x80, 0xBF, q) := by
  rw [lead?, if_pos (by omega), Nat.add_sub_cancel]

/-- The first of three bytes, and the bounds within which the second has to be: code points from
U+0800 on have no shorter form, and those of the surrogates are no characters. -/
theorem exists_lead?_three {q r : Nat} (hq : q < 16) (hr : r < 64) (hshort : 32 ≤ 64 * q + r)
    (hsurrogate : 64 * q + r < 864 ∨ 896 ≤ 64 * q + r) :
    ∃ low high, lead? (q + 224) = some (1, low, high, q) ∧ low ≤ r + 0x80 ∧ r + 0x80 ≤ high := by
  have hq : q = 0 ∨ q = 13 ∨ (1 ≤ q ∧ q < 16 ∧ q ≠ 13) := by omega
  rcases hq with rfl | rfl | hq
  · exact ⟨0xA0, 0xBF, rfl, by omega, by omega⟩
  · exact ⟨0x80, 0x9F, rfl, by omega, by omega⟩
  · refine ⟨0x80, 0xBF, ?_, by omega, by omega⟩
    rw [lead?, if_neg (by omega), if_neg (by omega), if_neg (by omega), if_pos (by omega),
      Nat.add_sub_cancel]

/-- The first of four bytes, and the bounds within which the second has to be: code points from
U+10000 on have no shorter form, and U+10FFFF is the last one. -/
theorem exists_lead?_four {q r : Nat} (hr : r < 64) (hshort : 16 ≤ 64 * q + r)
    (hlast : 64 * q + r < 272) :
    ∃ low high, lead? (q + 240) = some (2, low, high, q) ∧ low ≤ r + 0x80 ∧ r + 0x80 ≤ high := by
  have hq : q = 0 ∨ q = 4 ∨ (1 ≤ q ∧ q ≤ 3) := by omega
  rcases hq with rfl | rfl | hq
  · exact ⟨0x90, 0xBF, rfl, by omega, by omega⟩
  · exact ⟨0x80, 0x8F, rfl, by omega, by omega⟩
  · refine ⟨0x80, 0xBF, ?_, by omega, by omega⟩
    rw [lead?, if_neg (by omega), if_neg (by omega), if_neg (by omega), if_neg (by omega),
      if_neg (by omega), if_pos (by omega), Nat.add_sub_cancel]

/-! ### Characters and texts -/

/-- The code point of a character is none of the surrogates, and U+10FFFF at most. -/
theorem toNat_lt_or (c : Char) : c.toNat < 0xD800 ∨ (0xDFFF < c.toNat ∧ c.toNat < 0x110000) := by
  have := c.valid
  simp only [UInt32.isValidChar, Nat.isValidChar] at this
  simpa using this

theorem decodeFrom_encode_char (c : Char) :
    decodeFrom position none (String.utf8EncodeChar c ++ bytes) =
      (decodeFrom (position + (String.utf8EncodeChar c).length) none bytes).map (c :: ·) := by
  have hc : c.val.toNat < 0xD800 ∨ (0xDFFF < c.val.toNat ∧ c.val.toNat < 0x110000) := toNat_lt_or c
  have back : ∀ n, n = c.val.toNat → Char.ofNat n = c := by rintro _ rfl; exact Char.ofNat_toNat c
  unfold String.utf8EncodeChar
  generalize c.val.toNat = v at hc back
  simp only
  split_ifs with h₁ h₂ h₃
  · rw [List.singleton_append, decodeFrom_single (by omega), back v rfl, List.length_singleton]
  · rw [List.cons_append, List.singleton_append,
      decodeFrom_lead (by omega) (lead?_two (q := v / 64 % 32) (by omega)),
      decodeFrom_last (by omega) (by simp) (by simp only; omega) rfl,
      back _ (by simp only; omega)]
    rfl
  · obtain ⟨low, high, hlead, hlow, hhigh⟩ := exists_lead?_three (q := v / 4096 % 16)
      (r := v / 64 % 64) (by omega) (by omega) (by omega) (by omega)
    rw [List.cons_append, List.cons_append, List.singleton_append,
      decodeFrom_lead (by omega) hlead, decodeFrom_middle (by omega) hlow hhigh rfl,
      decodeFrom_last (by omega) (by simp) (by simp only; omega) rfl,
      back _ (by simp only; omega)]
    rfl
  · obtain ⟨low, high, hlead, hlow, hhigh⟩ := exists_lead?_four (q := v / 262144 % 8)
      (r := v / 4096 % 64) (by omega) (by omega) (by omega)
    rw [List.cons_append, List.cons_append, List.cons_append, List.singleton_append,
      decodeFrom_lead (by omega) hlead, decodeFrom_middle (by omega) hlow hhigh rfl,
      decodeFrom_middle (by omega) (by simp) (by simp only; omega) rfl,
      decodeFrom_last (by omega) (by simp) (by simp only; omega) rfl,
      back _ (by simp only; omega)]
    rfl

theorem decodeFrom_encode (text : List Char) :
    decodeFrom position none (encode text) = .ok text := by
  induction text generalizing position with
  | nil => rfl
  | cons c text ih =>
    rw [encode, List.flatMap_cons, decodeFrom_encode_char, ← encode, ih]
    rfl

/-- What is written of a text is read as the text. -/
@[simp]
theorem decode_encode (text : List Char) : decode (encode text) = .ok text :=
  decodeFrom_encode text

end ArithTree.Text.Utf8
