import Mathlib.Data.Vector.Defs
import Mathlib.Tactic.Ring
import Mathlib.Tactic.Positivity

/-! Big-endian byte strings: the encoding of scalars, digests and 64-bit limbs. -/

namespace Ecdsa

/-- The integer a byte string spells with its most significant byte first. -/
def fromBeBytes : List UInt8 → ℕ
  | [] => 0
  | byte :: rest => byte.toNat * 256 ^ rest.length + fromBeBytes rest

/-- The low `width` bytes of a value, most significant first and zero-padded. -/
def toBeBytes : ℕ → ℕ → List UInt8
  | 0, _ => []
  | width + 1, value => UInt8.ofNat (value / 256 ^ width) :: toBeBytes width value

/-- A byte built from a number keeps that number modulo 256. -/
@[simp] theorem byte_toNat_ofNat (value : ℕ) : (UInt8.ofNat value).toNat = value % 256 := by
  simp [UInt8.ofNat, UInt8.toNat, Fin.ofNat]

/-- Writing a value always produces exactly the requested number of bytes. -/
@[simp] theorem length_toBeBytes (width value : ℕ) : (toBeBytes width value).length = width := by
  induction width <;> simp [toBeBytes, *]

/-- Concatenation shifts the leading bytes past the trailing ones. -/
theorem fromBeBytes_append (front back : List UInt8) :
    fromBeBytes (front ++ back) = fromBeBytes front * 256 ^ back.length + fromBeBytes back := by
  -- Each leading byte moves up by the width of the trailing string.
  induction front with
  | nil => simp [fromBeBytes]
  | cons byte rest ih => simp [fromBeBytes, ih, pow_add]; ring

/-- A byte string is its first `k` bytes shifted past the rest, plus the rest. -/
theorem fromBeBytes_take_drop (bytes : List UInt8) (k : ℕ) :
    fromBeBytes bytes =
      fromBeBytes (bytes.take k) * 256 ^ (bytes.length - k) + fromBeBytes (bytes.drop k) := by
  conv_lhs => rw [← List.take_append_drop k bytes]
  rw [fromBeBytes_append, List.length_drop]

/-- A byte string of length `k` spells an integer below `256 ^ k`. -/
theorem fromBeBytes_lt (bytes : List UInt8) : fromBeBytes bytes < 256 ^ bytes.length := by
  -- The leading byte is at most 255 units of the place value of the rest.
  induction bytes with
  | nil => simp [fromBeBytes]
  | cons byte rest ih =>
    have top : byte.toNat ≤ 255 := by have : byte.toNat < 256 := byte.val.isLt; omega
    calc byte.toNat * 256 ^ rest.length + fromBeBytes rest
        < 255 * 256 ^ rest.length + 256 ^ rest.length := by
          have := Nat.mul_le_mul_right (256 ^ rest.length) top
          omega
      _ = 256 ^ (rest.length + 1) := by ring

/-- Reading back a written value recovers it modulo the width. -/
theorem fromBeBytes_toBeBytes (width value : ℕ) :
    fromBeBytes (toBeBytes width value) = value % 256 ^ width := by
  -- The new leading byte is the digit that `Nat.mod_pow_succ` splits off the top.
  induction width with
  | zero => simp [toBeBytes, fromBeBytes, Nat.mod_one]
  | succ width ih =>
    simp only [toBeBytes, fromBeBytes, length_toBeBytes, byte_toNat_ofNat, ih, Nat.mod_pow_succ]
    ring

/-- Two byte strings of one length that spell the same integer are equal. -/
theorem fromBeBytes_inj {front back : List UInt8} (sameLength : front.length = back.length)
    (same : fromBeBytes front = fromBeBytes back) : front = back := by
  -- The leading bytes are the quotients by the place value, the rests the remainders.
  induction front generalizing back with
  | nil => exact (List.length_eq_zero.mp sameLength.symm).symm
  | cons byte rest ih =>
    cases back with
    | nil => simp at sameLength
    | cons other others =>
      simp only [List.length_cons, Nat.add_right_cancel_iff] at sameLength
      simp only [fromBeBytes, sameLength] at same
      have place : 0 < 256 ^ others.length := by positivity
      have lead : byte.toNat = other.toNat := by
        have quotient := congrArg (· / 256 ^ others.length) same
        simp only [Nat.add_comm (_ * _), Nat.add_mul_div_right _ _ place] at quotient
        rwa [Nat.div_eq_of_lt (sameLength ▸ fromBeBytes_lt rest),
          Nat.div_eq_of_lt (fromBeBytes_lt others), Nat.zero_add, Nat.zero_add] at quotient
      rw [UInt8.toNat.inj lead, ih sameLength (by rw [lead] at same; omega)]

/-- Writing the integer a byte string spells, at its own width, gives the string back. -/
theorem toBeBytes_fromBeBytes (bytes : List UInt8) :
    toBeBytes bytes.length (fromBeBytes bytes) = bytes :=
  -- Both strings have one length and spell one integer below the width.
  fromBeBytes_inj (length_toBeBytes _ _) (by
    rw [fromBeBytes_toBeBytes, Nat.mod_eq_of_lt (fromBeBytes_lt bytes)])

/-- `bytes[i] ^= 1 << j`: the byte string with bit `j` of byte `i` flipped. -/
def flipBit (bytes : List UInt8) (i j : ℕ) : List UInt8 :=
  bytes.modify (· ^^^ UInt8.ofNat (2 ^ j)) i

/-- Flipping a bit of the leading byte. -/
@[simp] theorem flipBit_cons_zero (byte : UInt8) (rest : List UInt8) (j : ℕ) :
    flipBit (byte :: rest) 0 j = (byte ^^^ UInt8.ofNat (2 ^ j)) :: rest :=
  List.modify_zero_cons _ _ _

/-- Flipping a bit past the leading byte. -/
@[simp] theorem flipBit_cons_succ (byte : UInt8) (rest : List UInt8) (i j : ℕ) :
    flipBit (byte :: rest) (i + 1) j = byte :: flipBit rest i j :=
  List.modify_succ_cons _ _ _ _

/-- Flipping a bit keeps the length. -/
@[simp] theorem length_flipBit (bytes : List UInt8) (i j : ℕ) :
    (flipBit bytes i j).length = bytes.length :=
  List.length_modify _ _ _

/-- Flipping bit `j` of a number removes or adds `2 ^ j`. -/
theorem xor_two_pow (value j : ℕ) :
    (value ^^^ 2 ^ j) + 2 ^ j = value ∨ value ^^^ 2 ^ j = value + 2 ^ j := by
  -- Bit `j` of `value` is bit `j - 1` of `value / 2`; the lowest bit is kept above `j = 0`.
  induction j generalizing value with
  | zero =>
    have high := @Nat.xor_div_two value 1
    have low := @Nat.xor_mod_two_eq_one value 1
    simp only [pow_zero, Nat.reduceDiv, Nat.xor_zero, Nat.one_mod, iff_true] at *
    omega
  | succ j ih =>
    have high := @Nat.xor_div_two value (2 ^ (j + 1))
    have low := @Nat.xor_mod_two_eq_one value (2 ^ (j + 1))
    have := ih (value / 2)
    rw [pow_succ, Nat.mul_div_cancel _ (by norm_num : 0 < 2)] at high
    rw [pow_succ, Nat.mul_mod_left] at low
    rw [pow_succ]
    omega

/-- Flipping bit `j < 8` of a byte removes or adds `2 ^ j`. -/
theorem byte_xor_two_pow (byte : UInt8) {j : ℕ} (hj : j < 8) :
    (byte ^^^ UInt8.ofNat (2 ^ j)).toNat + 2 ^ j = byte.toNat ∨
      (byte ^^^ UInt8.ofNat (2 ^ j)).toNat = byte.toNat + 2 ^ j := by
  -- The byte's xor is the xor of its integer, as `2 ^ j` fits in a byte.
  have small : 2 ^ j < 256 := by
    calc 2 ^ j < 2 ^ 8 := Nat.pow_lt_pow_right (by norm_num) hj
      _ = 256 := by norm_num
  have xor : (byte ^^^ UInt8.ofNat (2 ^ j)).toNat = byte.toNat ^^^ 2 ^ j := by
    show (byte.toBitVec ^^^ (UInt8.ofNat (2 ^ j)).toBitVec).toNat = _
    rw [BitVec.toNat_xor]
    exact congrArg (byte.toNat ^^^ ·) ((byte_toNat_ofNat _).trans (Nat.mod_eq_of_lt small))
  rw [xor]
  exact xor_two_pow byte.toNat j

/-- Flipping one bit moves the integer a byte string spells by that bit's place value. -/
theorem fromBeBytes_flipBit (bytes : List UInt8) {i j : ℕ} (hi : i < bytes.length) (hj : j < 8) :
    fromBeBytes (flipBit bytes i j) + 2 ^ (8 * (bytes.length - 1 - i) + j) = fromBeBytes bytes ∨
      fromBeBytes (flipBit bytes i j) =
        fromBeBytes bytes + 2 ^ (8 * (bytes.length - 1 - i) + j) := by
  induction bytes generalizing i with
  | nil => simp at hi
  | cons byte rest ih =>
    cases i with
    | zero =>
      -- The flipped byte moves by `2 ^ j` at the place value `256 ^ |rest|`.
      have place : 2 ^ (8 * ((byte :: rest).length - 1 - 0) + j) = 2 ^ j * 256 ^ rest.length := by
        rw [pow_add, pow_mul]
        simp [mul_comm]
      rw [flipBit_cons_zero]
      simp only [fromBeBytes, place]
      rcases byte_xor_two_pow byte hj with down | up
      · left
        rw [← down]
        ring
      · right
        rw [up]
        ring
    | succ i =>
      -- A later byte moves the rest, below the unchanged leading byte.
      have shift : (byte :: rest).length - 1 - (i + 1) = rest.length - 1 - i := by simp; omega
      rw [flipBit_cons_succ]
      simp only [fromBeBytes, length_flipBit, shift]
      rcases ih (i := i) (by simp at hi; omega) with down | up
      · left
        omega
      · right
        omega

end Ecdsa
