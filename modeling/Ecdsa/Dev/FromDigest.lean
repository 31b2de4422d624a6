import Ecdsa.Curve
import Ecdsa.Dev.Limbs

/-! The mock curve's `FromDigest`: one constant-time subtraction of the modulus, with add-back. -/

namespace Ecdsa.MockCurve

variable (MODULUS : Fin 4 → UInt64)

/-- A scalar of the mock curve (`elliptic_curve::dev::Scalar`): four limbs below the modulus. -/
structure Scalar where
  limbs : Fin 4 → UInt64
  lt_modulus : limbsValue limbs < limbsValue MODULUS

/--
Modelled from the spec: `Scalar::try_from([u64; 4])` of the mock curve.

It fails only on limbs that are not canonically reduced below the modulus; here it fails on all
of them. The results below use only that it keeps the limbs it accepts, and accepts those below
the modulus.
-/
def Scalar.tryFrom (limbs : Fin 4 → UInt64) : Option (Scalar MODULUS) :=
  if below : limbsValue limbs < limbsValue MODULUS then some ⟨limbs, below⟩ else none

/-- `sub_inner`: `l - r` over five limbs, then `MODULUS` added back under the borrow mask. -/
def subInner (l0 l1 l2 l3 l4 r0 r1 r2 r3 r4 : UInt64) : Option (Scalar MODULUS) :=
  let (w0, borrow) := sbb64 l0 r0 0
  let (w1, borrow) := sbb64 l1 r1 borrow
  let (w2, borrow) := sbb64 l2 r2 borrow
  let (w3, borrow) := sbb64 l3 r3 borrow
  let (_, borrow) := sbb64 l4 r4 borrow
  let (w0, carry) := adc64 w0 (MODULUS 0 &&& borrow) 0
  let (w1, carry) := adc64 w1 (MODULUS 1 &&& borrow) carry
  let (w2, carry) := adc64 w2 (MODULUS 2 &&& borrow) carry
  let (w3, _) := adc64 w3 (MODULUS 3 &&& borrow) carry
  Scalar.tryFrom MODULUS ![w0, w1, w2, w3]

/-- `u64::from_be_bytes(bytes[start..start + 8].try_into().unwrap())`. -/
def u64FromBeBytes (bytes : FieldBytes 32) (start : ℕ) : UInt64 :=
  UInt64.ofNat (fromBeBytes ((bytes.toList.drop start).take 8))

/--
`FromDigest<MockCurve>::from_digest` on the finalized 32-byte digest.

The result is `none` where the `unwrap` of `Scalar::try_from` would panic.
-/
def fromDigest (bytes : FieldBytes 32) : Option (Scalar MODULUS) :=
  subInner MODULUS (u64FromBeBytes bytes 24) (u64FromBeBytes bytes 16) (u64FromBeBytes bytes 8)
    (u64FromBeBytes bytes 0) 0 (MODULUS 0) (MODULUS 1) (MODULUS 2) (MODULUS 3) 0

/-- The borrow chain of `sub_inner`: the four difference limbs and the final borrow word. -/
def subLimbs (l0 l1 l2 l3 l4 r0 r1 r2 r3 r4 : UInt64) : (Fin 4 → UInt64) × UInt64 :=
  let (w0, borrow) := sbb64 l0 r0 0
  let (w1, borrow) := sbb64 l1 r1 borrow
  let (w2, borrow) := sbb64 l2 r2 borrow
  let (w3, borrow) := sbb64 l3 r3 borrow
  let (_, borrow) := sbb64 l4 r4 borrow
  (![w0, w1, w2, w3], borrow)

/-- The add-back of `sub_inner`: `MODULUS`, masked by the borrow word, added to the limbs. -/
def addBack (w : Fin 4 → UInt64) (borrow : UInt64) : Fin 4 → UInt64 :=
  let (w0, carry) := adc64 (w 0) (MODULUS 0 &&& borrow) 0
  let (w1, carry) := adc64 (w 1) (MODULUS 1 &&& borrow) carry
  let (w2, carry) := adc64 (w 2) (MODULUS 2 &&& borrow) carry
  let (w3, _) := adc64 (w 3) (MODULUS 3 &&& borrow) carry
  ![w0, w1, w2, w3]

/-- `sub_inner` is its borrow chain followed by its add-back. -/
theorem subInner_eq (l0 l1 l2 l3 l4 r0 r1 r2 r3 r4 : UInt64) :
    subInner MODULUS l0 l1 l2 l3 l4 r0 r1 r2 r3 r4 =
      Scalar.tryFrom MODULUS (addBack MODULUS (subLimbs l0 l1 l2 l3 l4 r0 r1 r2 r3 r4).1
        (subLimbs l0 l1 l2 l3 l4 r0 r1 r2 r3 r4).2) :=
  rfl

/--
The borrow chain of `sub_inner` leaves `L - R` modulo `2 ^ 256` in its four limbs, for the
five-limb values `L` and `R`, and a borrow word that is all ones exactly when `L < R`.
-/
theorem subLimbs_value (l0 l1 l2 l3 l4 r0 r1 r2 r3 r4 : UInt64) :
    limbsValue (subLimbs l0 l1 l2 l3 l4 r0 r1 r2 r3 r4).1 =
        (wideValue ![l0, l1, l2, l3] l4 + 2 ^ 320 - wideValue ![r0, r1, r2, r3] r4) % 2 ^ 256 ∧
      (subLimbs l0 l1 l2 l3 l4 r0 r1 r2 r3 r4).2.toNat =
        if wideValue ![l0, l1, l2, l3] l4 < wideValue ![r0, r1, r2, r3] r4 then 2 ^ 64 - 1
        else 0 := by
  -- Each step passes its borrow bit up one limb; the fifth step's borrow word is the mask.
  have e0 := sbb64_value l0 r0 0
  have e1 := sbb64_value l1 r1 (sbb64 l0 r0 0).2
  have e2 := sbb64_value l2 r2 (sbb64 l1 r1 (sbb64 l0 r0 0).2).2
  have e3 := sbb64_value l3 r3 (sbb64 l2 r2 (sbb64 l1 r1 (sbb64 l0 r0 0).2).2).2
  have e4 := sbb64_value l4 r4 (sbb64 l3 r3 (sbb64 l2 r2 (sbb64 l1 r1 (sbb64 l0 r0 0).2).2).2).2
  have mask := sbb64_borrow l4 r4
    (sbb64 l3 r3 (sbb64 l2 r2 (sbb64 l1 r1 (sbb64 l0 r0 0).2).2).2).2
  have := borrowBit_le_one (sbb64 l3 r3 (sbb64 l2 r2 (sbb64 l1 r1 (sbb64 l0 r0 0).2).2).2).2
  have := word_toNat_lt l4
  have := word_toNat_lt
    (sbb64 l4 r4 (sbb64 l3 r3 (sbb64 l2 r2 (sbb64 l1 r1 (sbb64 l0 r0 0).2).2).2).2).1
  have := limbsValue_lt (subLimbs l0 l1 l2 l3 l4 r0 r1 r2 r3 r4).1
  have zero : borrowBit 0 = 0 := rfl
  simp only [subLimbs, wideValue, limbsValue_vec, borrowBit, zero, UInt64.toNat_zero] at *
  split <;> split at mask <;> omega

/-- The add-back under an all-ones mask adds `MODULUS`, and under a zero mask adds nothing. -/
theorem addBack_value (w : Fin 4 → UInt64) (borrow : UInt64)
    (isMask : borrow.toNat = 2 ^ 64 - 1 ∨ borrow.toNat = 0) :
    limbsValue (addBack MODULUS w borrow) =
      (limbsValue w + if borrow.toNat = 2 ^ 64 - 1 then limbsValue MODULUS else 0) % 2 ^ 256 := by
  -- Each step passes its carry up one limb, and the last carry is dropped.
  have f0 := adc64_value (w 0) (MODULUS 0 &&& borrow) 0
  have f1 := adc64_value (w 1) (MODULUS 1 &&& borrow) (adc64 (w 0) (MODULUS 0 &&& borrow) 0).2
  have f2 := adc64_value (w 2) (MODULUS 2 &&& borrow)
    (adc64 (w 1) (MODULUS 1 &&& borrow) (adc64 (w 0) (MODULUS 0 &&& borrow) 0).2).2
  have f3 := adc64_value (w 3) (MODULUS 3 &&& borrow)
    (adc64 (w 2) (MODULUS 2 &&& borrow)
      (adc64 (w 1) (MODULUS 1 &&& borrow) (adc64 (w 0) (MODULUS 0 &&& borrow) 0).2).2).2
  have := limbsValue_lt (addBack MODULUS w borrow)
  simp only [addBack, limbsValue_vec] at this ⊢
  simp only [limbsValue]
  rcases isMask with ones | zero
  · -- Under an all-ones mask every limb of `MODULUS` is added.
    have masked (i : Fin 4) : (MODULUS i &&& borrow).toNat = (MODULUS i).toNat := by
      rw [and_borrow_toNat _ _ (.inl ones), if_pos ones]
    simp only [UInt64.toNat_zero, masked, ones, if_true] at *
    omega
  · -- Under a zero mask nothing is added.
    have masked (i : Fin 4) : (MODULUS i &&& borrow).toNat = 0 := by
      rw [and_borrow_toNat _ _ (.inr zero), if_neg (by omega)]
    have notOnes : (0 : ℕ) ≠ 2 ^ 64 - 1 := by norm_num
    simp only [UInt64.toNat_zero, masked, zero, if_neg notOnes] at *
    omega

/--
`sub_inner` is `try_from` of the limbs holding `L - R`, with `MODULUS` added back when `L < R`,
modulo `2 ^ 256`.
-/
theorem subInner_eq_tryFrom (l0 l1 l2 l3 l4 r0 r1 r2 r3 r4 : UInt64) :
    ∃ limbs, subInner MODULUS l0 l1 l2 l3 l4 r0 r1 r2 r3 r4 = Scalar.tryFrom MODULUS limbs ∧
      limbsValue limbs =
        (wideValue ![l0, l1, l2, l3] l4 + 2 ^ 320 - wideValue ![r0, r1, r2, r3] r4 +
          if wideValue ![l0, l1, l2, l3] l4 < wideValue ![r0, r1, r2, r3] r4 then
            limbsValue MODULUS
          else 0) % 2 ^ 256 := by
  -- The add-back adds `MODULUS` under the borrow chain's mask, modulo `2 ^ 256` again.
  obtain ⟨difference, mask⟩ := subLimbs_value l0 l1 l2 l3 l4 r0 r1 r2 r3 r4
  refine ⟨_, subInner_eq .., ?_⟩
  rw [addBack_value MODULUS _ _ (by split at mask <;> simp [mask]), mask, difference,
    Nat.mod_add_mod]
  have notOnes : (0 : ℕ) ≠ 2 ^ 64 - 1 := by norm_num
  by_cases borrowed : wideValue ![l0, l1, l2, l3] l4 < wideValue ![r0, r1, r2, r3] r4
  · simp only [borrowed, if_true]
  · simp only [borrowed, if_false, if_neg notOnes]

end Ecdsa.MockCurve
