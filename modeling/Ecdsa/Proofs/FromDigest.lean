import Ecdsa.Dev.FromDigest

/-! The mock curve's `from_digest` never panics and reduces the digest modulo `MODULUS`. -/

namespace Ecdsa.MockCurve

/-- An eight-byte slice of the digest is read as one word without loss. -/
theorem u64FromBeBytes_toNat (bytes : FieldBytes 32) (start : ℕ) :
    (u64FromBeBytes bytes start).toNat = fromBeBytes ((bytes.toList.drop start).take 8) := by
  -- At most eight bytes spell an integer below `256 ^ 8 = 2 ^ 64`.
  have short : ((bytes.toList.drop start).take 8).length ≤ 8 := List.length_take_le _ _
  have below := fromBeBytes_lt ((bytes.toList.drop start).take 8)
  have bound : 256 ^ ((bytes.toList.drop start).take 8).length ≤ 2 ^ 64 :=
    calc 256 ^ ((bytes.toList.drop start).take 8).length ≤ 256 ^ 8 :=
          Nat.pow_le_pow_right (by norm_num) short
      _ = 2 ^ 64 := by norm_num
  rw [u64FromBeBytes, word_toNat_ofNat, Nat.mod_eq_of_lt (below.trans_le bound)]

/-- The four big-endian words of a 32-byte digest, least significant first, spell its integer. -/
theorem limbsValue_u64FromBeBytes (bytes : FieldBytes 32) :
    limbsValue ![u64FromBeBytes bytes 24, u64FromBeBytes bytes 16, u64FromBeBytes bytes 8,
      u64FromBeBytes bytes 0] = fromBeBytes bytes.toList := by
  -- Split the digest three times at eight bytes; the last word is the whole remaining slice.
  have length : bytes.toList.length = 32 := bytes.toList_length
  have top := fromBeBytes_take_drop bytes.toList 8
  have second := fromBeBytes_take_drop (bytes.toList.drop 8) 8
  have third := fromBeBytes_take_drop (bytes.toList.drop 16) 8
  have last : (bytes.toList.drop 24).take 8 = bytes.toList.drop 24 :=
    List.take_of_length_le (by simp [length])
  simp only [List.drop_drop, List.length_drop, length] at second third
  simp only [limbsValue_vec, u64FromBeBytes_toNat, List.drop_zero, last, length] at *
  norm_num at top second third
  omega

variable (MODULUS : Fin 4 → UInt64)

/-- Subtracting `MODULUS` once and adding it back on a borrow leaves `l` or `l - MODULUS`. -/
theorem addBack_subLimbs (l0 l1 l2 l3 : UInt64) :
    limbsValue (addBack MODULUS
        (subLimbs l0 l1 l2 l3 0 (MODULUS 0) (MODULUS 1) (MODULUS 2) (MODULUS 3) 0).1
        (subLimbs l0 l1 l2 l3 0 (MODULUS 0) (MODULUS 1) (MODULUS 2) (MODULUS 3) 0).2) =
      if limbsValue ![l0, l1, l2, l3] < limbsValue MODULUS then limbsValue ![l0, l1, l2, l3]
      else limbsValue ![l0, l1, l2, l3] - limbsValue MODULUS := by
  -- The borrow word is all ones exactly when `l < MODULUS`, and then the add-back restores `l`.
  have limbs : limbsValue ![MODULUS 0, MODULUS 1, MODULUS 2, MODULUS 3] = limbsValue MODULUS := rfl
  obtain ⟨difference, mask⟩ := subLimbs_value l0 l1 l2 l3 0 (MODULUS 0) (MODULUS 1) (MODULUS 2)
    (MODULUS 3) 0
  simp only [wideValue_zero, limbs] at difference mask
  have := limbsValue_lt ![l0, l1, l2, l3]
  have := limbsValue_lt MODULUS
  rw [addBack_value MODULUS _ _ (by split at mask <;> simp [mask]), mask, difference]
  by_cases below : limbsValue ![l0, l1, l2, l3] < limbsValue MODULUS
  · -- Below `n` the chain borrowed, and adding `n` back wraps around to `l`.
    simp only [below, if_true]
    omega
  · -- From `n` on nothing is added back, and `l - n` stays.
    have notOnes : (0 : ℕ) ≠ 2 ^ 64 - 1 := by norm_num
    simp only [below, if_false, if_neg notOnes]
    omega

/--
`from_digest` of the mock curve never reaches the panic of `Scalar::try_from(..).unwrap()`, and
returns the digest's big-endian integer `L` modulo `n`: `L` below `n`, and `L - n` from `n` on.
This needs `MODULUS` of at least 255 bits, so that `L - n < n` for every 256-bit `L`.
-/
theorem fromDigest_reduces (large : 2 ^ 255 ≤ limbsValue MODULUS) (bytes : FieldBytes 32) :
    ∃ scalar, fromDigest MODULUS bytes = some scalar ∧
      limbsValue scalar.limbs = fromBeBytes bytes.toList % limbsValue MODULUS ∧
      (fromBeBytes bytes.toList < limbsValue MODULUS →
        limbsValue scalar.limbs = fromBeBytes bytes.toList) ∧
      (limbsValue MODULUS ≤ fromBeBytes bytes.toList →
        limbsValue scalar.limbs = fromBeBytes bytes.toList - limbsValue MODULUS) := by
  -- `from_digest` is `try_from` of limbs holding `L` below `n`, and `L - n` from `n` on.
  obtain ⟨limbs, built, value⟩ : ∃ limbs, fromDigest MODULUS bytes = Scalar.tryFrom MODULUS limbs ∧
      limbsValue limbs = if fromBeBytes bytes.toList < limbsValue MODULUS then
        fromBeBytes bytes.toList else fromBeBytes bytes.toList - limbsValue MODULUS := by
    refine ⟨_, subInner_eq .., ?_⟩
    rw [addBack_subLimbs, limbsValue_u64FromBeBytes]
  have digest : fromBeBytes bytes.toList < 2 ^ 256 := by simpa using fromBeBytes_lt bytes.toList
  -- From `n` on, `L - n < 2 ^ 256 - 2 ^ 255 ≤ n`, so `try_from` accepts.
  have below : limbsValue limbs < limbsValue MODULUS := by
    rw [value]
    split <;> omega
  refine ⟨⟨limbs, below⟩, by rw [built, Scalar.tryFrom, dif_pos below], ?_, fun small => ?_,
    fun large => ?_⟩
  · rw [value]
    split
    · exact (Nat.mod_eq_of_lt ‹_›).symm
    · rw [Nat.mod_eq_sub_mod (by omega), Nat.mod_eq_of_lt (by omega)]
  · rw [value, if_pos small]
  · rw [value, if_neg (by omega)]

/-- The P-256 group order in little-endian limbs, the mock curve's `MODULUS`. -/
def p256Modulus : Fin 4 → UInt64 :=
  ![0xf3b9cac2fc632551, 0xbce6faada7179e84, 0xffffffffffffffff, 0xffffffff00000000]

/-- With the P-256 order, the all-ones digest reduces to `2 ^ 256 - 1 - n` without a panic. -/
theorem fromDigest_reduces_p256 :
    2 ^ 255 ≤ limbsValue p256Modulus ∧
      ∃ scalar, fromDigest p256Modulus ⟨List.replicate 32 0xff, rfl⟩ = some scalar ∧
        limbsValue scalar.limbs =
          fromBeBytes (List.replicate 32 0xff) % limbsValue p256Modulus ∧
        (fromBeBytes (List.replicate 32 0xff) < limbsValue p256Modulus →
          limbsValue scalar.limbs = fromBeBytes (List.replicate 32 0xff)) ∧
        (limbsValue p256Modulus ≤ fromBeBytes (List.replicate 32 0xff) →
          limbsValue scalar.limbs = fromBeBytes (List.replicate 32 0xff) - limbsValue p256Modulus) :=
  ⟨by decide, fromDigest_reduces p256Modulus (by decide) _⟩

end Ecdsa.MockCurve
