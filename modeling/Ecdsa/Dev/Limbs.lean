import Ecdsa.Bytes
import Mathlib

/-! The 64-bit limb steps `sbb64` and `adc64`, and the values of four-limb integers. -/

namespace Ecdsa

/-- A machine word read back from a number keeps that number modulo `2 ^ 64`. -/
@[simp] theorem word_toNat_ofNat (value : ℕ) : (UInt64.ofNat value).toNat = value % 2 ^ 64 := by
  simp [UInt64.ofNat, UInt64.toNat, Fin.ofNat]

/-- A machine word is below `2 ^ 64`. -/
theorem word_toNat_lt (word : UInt64) : word.toNat < 2 ^ 64 := word.val.isLt

/--
Modelled from the spec: `sbb64`, one step of constant-time multi-word subtraction.

It computes `a - (b + borrow)` in 128 bits, where only the top bit of the incoming `borrow`
counts, and returns the low word with the high word as the new borrow: all ones after a borrow.
-/
def sbb64 (a b borrow : UInt64) : UInt64 × UInt64 :=
  let ret := (a.toNat + 2 ^ 128 - (b.toNat + (borrow.toNat >>> 63))) % 2 ^ 128
  (UInt64.ofNat ret, UInt64.ofNat (ret >>> 64))

/--
Modelled from the spec: `adc64`, one step of multi-word addition.

It computes `a + b + carry` in 128 bits and returns the low word and the high word as carry.
-/
def adc64 (a b carry : UInt64) : UInt64 × UInt64 :=
  let ret := a.toNat + b.toNat + carry.toNat
  (UInt64.ofNat ret, UInt64.ofNat (ret >>> 64))

/-- The borrow bit `sbb64` reads from a borrow word: its top bit. -/
def borrowBit (borrow : UInt64) : ℕ := borrow.toNat / 2 ^ 63

/-- A borrow word carries a one-bit borrow. -/
theorem borrowBit_le_one (borrow : UInt64) : borrowBit borrow ≤ 1 := by
  have := word_toNat_lt borrow
  unfold borrowBit
  omega

/-- One subtraction step: the difference word, the subtrahend and the borrow in make up the
minuend and the borrow out. -/
theorem sbb64_value (a b borrow : UInt64) :
    (sbb64 a b borrow).1.toNat + b.toNat + borrowBit borrow =
      a.toNat + 2 ^ 64 * borrowBit (sbb64 a b borrow).2 := by
  have := word_toNat_lt a
  have := word_toNat_lt b
  have := borrowBit_le_one borrow
  simp only [sbb64, borrowBit, word_toNat_ofNat, Nat.shiftRight_eq_div_pow] at *
  omega

/-- The borrow word out of a subtraction step is all ones after a borrow and zero otherwise. -/
theorem sbb64_borrow (a b borrow : UInt64) :
    (sbb64 a b borrow).2.toNat =
      if a.toNat < b.toNat + borrowBit borrow then 2 ^ 64 - 1 else 0 := by
  have := word_toNat_lt a
  have := word_toNat_lt b
  have := borrowBit_le_one borrow
  simp only [sbb64, borrowBit, word_toNat_ofNat, Nat.shiftRight_eq_div_pow] at *
  split <;> omega

/-- One addition step: the sum word and the carry out make up the two words and the carry in. -/
theorem adc64_value (a b carry : UInt64) :
    (adc64 a b carry).1.toNat + 2 ^ 64 * (adc64 a b carry).2.toNat =
      a.toNat + b.toNat + carry.toNat := by
  have := word_toNat_lt a
  have := word_toNat_lt b
  have := word_toNat_lt carry
  simp only [adc64, word_toNat_ofNat, Nat.shiftRight_eq_div_pow]
  omega

/-- Masking a word with a borrow word keeps it after a borrow and clears it otherwise. -/
theorem and_borrow_toNat (word borrow : UInt64)
    (mask : borrow.toNat = 2 ^ 64 - 1 ∨ borrow.toNat = 0) :
    (word &&& borrow).toNat = if borrow.toNat = 2 ^ 64 - 1 then word.toNat else 0 := by
  rw [UInt64.and_toNat]
  rcases mask with ones | zero
  · rw [if_pos ones, ones, Nat.and_pow_two_sub_one_eq_mod, Nat.mod_eq_of_lt (word_toNat_lt word)]
  · rw [zero, Nat.and_zero]
    simp

/-- The value of four little-endian limbs, as `[u64; 4]` stores a 256-bit integer. -/
def limbsValue (limbs : Fin 4 → UInt64) : ℕ :=
  (limbs 0).toNat + 2 ^ 64 * (limbs 1).toNat + 2 ^ 128 * (limbs 2).toNat +
    2 ^ 192 * (limbs 3).toNat

/-- The value of four limbs written out, as `sub_inner` assembles `[w0, w1, w2, w3]`. -/
@[simp] theorem limbsValue_vec (a b c d : UInt64) :
    limbsValue ![a, b, c, d] = a.toNat + 2 ^ 64 * b.toNat + 2 ^ 128 * c.toNat + 2 ^ 192 * d.toNat :=
  rfl

/-- Four limbs hold an integer below `2 ^ 256`. -/
theorem limbsValue_lt (limbs : Fin 4 → UInt64) : limbsValue limbs < 2 ^ 256 := by
  have := word_toNat_lt (limbs 0)
  have := word_toNat_lt (limbs 1)
  have := word_toNat_lt (limbs 2)
  have := word_toNat_lt (limbs 3)
  unfold limbsValue
  omega

/-- The value of four limbs under a fifth, as `sub_inner` takes each of its operands. -/
def wideValue (limbs : Fin 4 → UInt64) (top : UInt64) : ℕ :=
  limbsValue limbs + 2 ^ 256 * top.toNat

/-- With a zero fifth limb, the wide value is the four limbs' value. -/
@[simp] theorem wideValue_zero (limbs : Fin 4 → UInt64) : wideValue limbs 0 = limbsValue limbs := by
  simp [wideValue]

end Ecdsa
