/-
This file encodes natural numbers as byte words of a fixed width, least significant byte first, and
tells which machine words are negative.
-/

import Mathlib.Data.UInt
import Mathlib.Tactic

namespace Chappe.Foundation

abbrev Bytes := List UInt8

/-- The low bytes of a number. Higher bytes are dropped, as in an unsigned cast. -/
def littleEndian : Nat → Nat → Bytes
  | 0, _ => []
  | width + 1, value => UInt8.ofNat value :: littleEndian width (value / 256)

/-- The number that a byte word denotes. -/
def ofLittleEndian : Bytes → Nat
  | [] => 0
  | byte :: rest => byte.toNat + 256 * ofLittleEndian rest

@[simp] theorem littleEndian_length (width value : Nat) :
    (littleEndian width value).length = width := by
  induction width generalizing value with
  | zero => rfl
  | succ width ih => simp [littleEndian, ih]

/-- Decoding returns the value modulo the width. -/
theorem ofLittleEndian_littleEndian (width value : Nat) :
    ofLittleEndian (littleEndian width value) = value % 256 ^ width := by
  induction width generalizing value with
  | zero => simp [littleEndian, ofLittleEndian, Nat.mod_one]
  | succ width ih =>
      have split : value % 256 ^ (width + 1) = value % 256 + 256 * (value / 256 % 256 ^ width) := by
        rw [pow_succ', Nat.mod_mul]
      rw [littleEndian, ofLittleEndian, ih, UInt8.toNat_ofNat', split]

/-- Every word is the encoding of the number it denotes. -/
theorem littleEndian_ofLittleEndian (word : Bytes) :
    littleEndian word.length (ofLittleEndian word) = word := by
  induction word with
  | nil => rfl
  | cons byte rest ih =>
      have small : byte.toNat < 256 := byte.toNat_lt
      have quotient : (byte.toNat + 256 * ofLittleEndian rest) / 256 = ofLittleEndian rest := by
        omega
      have low : UInt8.ofNat (byte.toNat + 256 * ofLittleEndian rest) = byte := by
        apply UInt8.toNat_inj.mp
        rw [UInt8.toNat_ofNat']
        omega
      rw [List.length_cons, ofLittleEndian, littleEndian, quotient, ih, low]

/-- A word of a fixed width does not see the bits above it. -/
theorem littleEndian_mod (width value : Nat) :
    littleEndian width (value % 256 ^ width) = littleEndian width value := by
  have word := littleEndian_ofLittleEndian (littleEndian width value)
  rwa [littleEndian_length, ofLittleEndian_littleEndian] at word

/-- The cast to a signed word makes the upper half of the numbers negative. -/
theorem toInt32_neg_iff (word : UInt32) : word.toInt32 < 0 ↔ 2 ^ 31 ≤ word.toNat := by
  rw [Int32.lt_iff_toInt_lt]
  change word.toBitVec.toInt < 0 ↔ 2 ^ 31 ≤ word.toBitVec.toNat
  rw [BitVec.toInt_neg_iff]
  omega

end Chappe.Foundation
