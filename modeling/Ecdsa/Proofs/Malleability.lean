import Ecdsa.Dev.ToyCurve

/-! Tampering with `s`: a signature stays valid when `s` becomes `n - s`, and only then. -/

namespace Ecdsa

namespace Curve

variable {n : ℕ} {P : Type} [AddCommGroup P] [Module (ZMod n) P] (C : Curve n P)

/-- As on a Weierstrass curve, where `-(x, y) = (x, -y)`, opposite points share their x. -/
def XSymmetric : Prop := ∀ p, C.affineX (-p) = C.affineX p

/-- The reduced x-coordinate tells points apart up to sign. -/
def XSeparates : Prop := ∀ p q, C.affineX p = C.affineX q → p = q ∨ p = -q

variable [Fact n.Prime]

/-- A multiple of a non-zero point that shares its x-coordinate is the point or its opposite. -/
theorem scale_eq_one_or_neg_one (separates : C.XSeparates) {c : ZMod n} {p : P}
    (nonzero : p ≠ 0) (same : C.affineX (c • p) = C.affineX p) : c = 1 ∨ c = -1 := by
  -- `c p = ± p` makes `(c ∓ 1) p` vanish, and only the zero scalar kills a non-zero point.
  rcases separates _ _ same with fixed | flipped
  · have vanish : (c - 1) • p = 0 := by rw [sub_smul, one_smul, fixed, sub_self]
    exact .inl (by simpa [nonzero, sub_eq_zero] using vanish)
  · have vanish : (c + 1) • p = 0 := by rw [add_smul, one_smul, flipped, neg_add_cancel]
    exact .inr (by simpa [nonzero, add_eq_zero_iff_eq_neg] using vanish)

/-- Against `d G`, a signature of `k` with `s` replaced by `t` is judged on `(s / t) (k G)`. -/
theorem verifyPrehashed_replace_s {d k z r s t : ZMod n} (hr : r ≠ 0) (ht : t ≠ 0)
    (signer : r = C.affineX (k • C.generator)) (equation : z + r * d = s * k) :
    C.verifyPrehashed (d • C.generator) z (Signature.fromScalars C.fieldSize r t) = .ok () ↔
      C.affineX ((t⁻¹ * s) • k • C.generator) = C.affineX (k • C.generator) := by
  -- The verifier's point `t⁻¹ (z + r d) G` is `t⁻¹ s (k G)`.
  rw [verifyPrehashed_publicKey_eq_ok_iff C d z hr ht, equation, ← mul_assoc, mul_smul, ← signer]

/--
Against `d G`, a signature of `k` whose `s` is replaced by a non-zero `t ≠ s` verifies exactly
when `t = -s`, on a curve whose x-coordinate is symmetric and tells points apart up to sign.
-/
theorem verifyPrehashed_replace_s_iff (symmetric : C.XSymmetric) (separates : C.XSeparates)
    {d k z r s t : ZMod n} (hr : r ≠ 0) (hs : s ≠ 0) (hk : k ≠ 0) (ht : t ≠ 0) (distinct : t ≠ s)
    (signer : r = C.affineX (k • C.generator)) (equation : z + r * d = s * k) :
    C.verifyPrehashed (d • C.generator) z (Signature.fromScalars C.fieldSize r t) = .ok () ↔
      t = -s := by
  have point : k • C.generator ≠ 0 := smul_ne_zero hk C.generator_ne_zero
  refine (C.verifyPrehashed_replace_s hr ht signer equation).trans ⟨fun same => ?_, ?_⟩
  · -- Only `t⁻¹ s = ±1` keeps the x-coordinate, and `t = s` is no tampering.
    rcases C.scale_eq_one_or_neg_one separates point same with one | negOne
    · exact absurd ((inv_mul_eq_one₀ ht).mp one) distinct
    · rw [inv_mul_eq_iff_eq_mul₀ ht, mul_neg_one] at negOne
      rw [negOne, neg_neg]
  · -- With `t = -s` the verifier's point is `-(k G)`, which has the same x-coordinate.
    rintro rfl
    rw [inv_neg, neg_mul, inv_mul_cancel₀ hs, neg_one_smul, symmetric]

end Curve

/-- `s[i] ^= 1 << j` on the `s` half of a signature; `ecdsa_verify_invalid_s` flips `i = j = 0`. -/
def Signature.flipS {w : ℕ} (signature : Signature w) (i j : ℕ) : Signature w :=
  ⟨signature.r, ⟨flipBit signature.s.toList i j, by simp⟩⟩

/-- A scalar decoded from an encoding with one bit flipped is moved by that bit's place value. -/
theorem Scalar.val_of_flipBit {n w : ℕ} [NeZero n] (fits : n ≤ 256 ^ w) {s t : ZMod n}
    {bytes : FieldBytes w} {i j : ℕ} (hi : i < w) (hj : j < 8)
    (flipped : bytes.toList = flipBit (Scalar.toRepr w s).toList i j)
    (decoded : Scalar.fromRepr n bytes = some t) :
    t.val + 2 ^ (8 * (w - 1 - i) + j) = s.val ∨ t.val = s.val + 2 ^ (8 * (w - 1 - i) + j) := by
  -- Decoding is exact below `n`, so the move of the spelled integer is the move of the scalar.
  obtain ⟨below, rfl⟩ := Scalar.fromRepr_eq_some.mp decoded
  have moved := fromBeBytes_flipBit (Scalar.toRepr w s).toList (by simpa using hi) hj
  rw [ZMod.val_cast_of_lt below, flipped, ← Scalar.fromBeBytes_toRepr fits s]
  simpa using moved

namespace SigningKey

variable {n : ℕ} [Fact n.Prime] {P : Type} [AddCommGroup P] [Module (ZMod n) P] (C : Curve n P)
  (generateK : NonZeroScalar n → FieldBytes C.fieldSize → List UInt8 → NonZeroScalar n)

/-- A replacement `t` of `s` spells `n - s` exactly when, as a scalar, it is `-s`. -/
theorem val_eq_sub_iff {s t : ZMod n} (hs : s ≠ 0) :
    t.val = n - fromBeBytes (Scalar.toRepr C.fieldSize s).toList ↔ t = -s := by
  haveI : NeZero s := ⟨hs⟩
  rw [Scalar.fromBeBytes_toRepr C.order_le, ← ZMod.val_neg_of_ne_zero]
  exact (ZMod.val_injective n).eq_iff

/-- A valid replacement for `s` is the encoding of a non-zero scalar. -/
theorem exists_toRepr_of_valid {bytes : FieldBytes C.fieldSize}
    (valid : 0 < fromBeBytes bytes.toList ∧ fromBeBytes bytes.toList < n) :
    ∃ t : ZMod n, t ≠ 0 ∧ Scalar.toRepr C.fieldSize t = bytes := by
  have value := ZMod.val_cast_of_lt valid.2
  refine ⟨_, fun zero => ?_, Scalar.toRepr_of_fromRepr (Scalar.fromRepr_eq_some.mpr ⟨valid.2, rfl⟩)⟩
  rw [zero, ZMod.val_zero] at value
  omega

/--
Tampering with `s`: against the signing key's own digest and verify key, a valid replacement
`s'` for the `s` of a signature it made is accepted exactly when `s'` spells `n - s`.
-/
theorem tampered_s_verifies_iff (symmetric : C.XSymmetric) (separates : C.XSeparates)
    (key : SigningKey n) (digest : FieldBytes C.fieldSize) {signature : Signature C.fieldSize}
    (signed : key.trySignDigest C generateK digest = .ok signature) (s' : FieldBytes C.fieldSize)
    (valid : 0 < fromBeBytes s'.toList ∧ fromBeBytes s'.toList < n)
    (tampered : s' ≠ signature.s) :
    (key.verifyKey C).verifyDigest C digest ⟨signature.r, s'⟩ = .ok () ↔
      fromBeBytes s'.toList = n - fromBeBytes signature.s.toList := by
  obtain ⟨r, s, hr, hs, hk, rfl, signer, equation⟩ := C.trySignPrehashed_equation signed
  obtain ⟨t, ht, rfl⟩ := exists_toRepr_of_valid C valid
  have distinct : t ≠ s := fun same => tampered (by rw [same]; rfl)
  rw [Scalar.fromBeBytes_toRepr C.order_le, show (Signature.fromScalars C.fieldSize r s).s =
    Scalar.toRepr C.fieldSize s from rfl, val_eq_sub_iff C hs]
  exact C.verifyPrehashed_replace_s_iff symmetric separates hr hs hk ht distinct signer equation

/--
On every curve, P-256 and secp256k1 among them: a valid replacement `s'` for the `s` of a
signature the key made is accepted exactly when `(s / s') R` has the x-coordinate of the nonce
point `R = k G`. So a verifying `s'` other than `s` and `n - s` needs another multiple of `R`
with that x-coordinate.
-/
theorem tampered_s_verifies_iff_shared_x (key : SigningKey n) (digest : FieldBytes C.fieldSize)
    {signature : Signature C.fieldSize}
    (signed : key.trySignDigest C generateK digest = .ok signature) (s' : FieldBytes C.fieldSize)
    (valid : 0 < fromBeBytes s'.toList ∧ fromBeBytes s'.toList < n) :
    (key.verifyKey C).verifyDigest C digest ⟨signature.r, s'⟩ = .ok () ↔
      C.affineX (((fromBeBytes s'.toList : ZMod n)⁻¹ * fromBeBytes signature.s.toList) •
          (generateK key.secretScalar digest []).scalar • C.generator) =
        C.affineX ((generateK key.secretScalar digest []).scalar • C.generator) := by
  obtain ⟨r, s, hr, -, -, rfl, signer, equation⟩ := C.trySignPrehashed_equation signed
  obtain ⟨t, ht, rfl⟩ := exists_toRepr_of_valid C valid
  -- Both halves spell their scalars, so the verdict is the primitive's.
  rw [show (Signature.fromScalars C.fieldSize r s).s = Scalar.toRepr C.fieldSize s from rfl]
  simp only [Scalar.fromBeBytes_toRepr C.order_le, ZMod.natCast_zmod_val]
  exact C.verifyPrehashed_replace_s hr ht signer equation

/-- On the toy curve, `(1, 7)` is judged on `(6 / 7) R = -R` against the nonce point `R`. -/
theorem tampered_s_verifies_iff_shared_x_toy :
    (ToyCurve.key.verifyKey ToyCurve.curve).verifyDigest ToyCurve.curve ⟨[5], rfl⟩
        ⟨⟨[1], rfl⟩, ⟨[7], rfl⟩⟩ = .ok () ↔
      ToyCurve.curve.affineX (((fromBeBytes [7] : ZMod 13)⁻¹ * fromBeBytes [6]) •
          (ToyCurve.nonce ToyCurve.key.secretScalar ⟨[5], rfl⟩ []).scalar •
            ToyCurve.curve.generator) =
        ToyCurve.curve.affineX
          ((ToyCurve.nonce ToyCurve.key.secretScalar ⟨[5], rfl⟩ []).scalar •
            ToyCurve.curve.generator) :=
  tampered_s_verifies_iff_shared_x ToyCurve.curve ToyCurve.nonce ToyCurve.key ⟨[5], rfl⟩
    ToyCurve.key_signs_five ⟨[7], rfl⟩ (by decide)

/--
A single-bit flip of `s` in a signature the key made verifies only at the lowest bit of the last
byte, when `n` is odd. The tweak `s[0] ^= 1` of `ecdsa_verify_invalid_s` is therefore always
rejected once scalars take two bytes or more.
-/
theorem flipped_s_verifies_only_at_lowest_bit (symmetric : C.XSymmetric)
    (separates : C.XSeparates) (odd : n % 2 = 1) (key : SigningKey n)
    (digest : FieldBytes C.fieldSize) {signature : Signature C.fieldSize}
    (signed : key.trySignDigest C generateK digest = .ok signature) {i j : ℕ}
    (hi : i < C.fieldSize) (hj : j < 8)
    (verified : (key.verifyKey C).verifyDigest C digest (signature.flipS i j) = .ok ()) :
    i = C.fieldSize - 1 ∧ j = 0 := by
  obtain ⟨r, s, hr, hs, hk, rfl, signer, equation⟩ := C.trySignPrehashed_equation signed
  obtain ⟨-, t, -, decoded, -, ht⟩ := C.verifyPrehashed_ok_decodes verified
  -- The flip moves the value of `s` by `2 ^ k`, `k` the flipped bit's place.
  have moved := Scalar.val_of_flipBit C.order_le hi hj (by rfl) decoded
  have distinct : t ≠ s := by
    rintro rfl
    have := Nat.two_pow_pos (8 * (C.fieldSize - 1 - i) + j)
    omega
  -- The verifier accepts the flip only as `t = -s`, that is `t + s = n`.
  have encoded : (Signature.fromScalars C.fieldSize r s).flipS i j =
      Signature.fromScalars C.fieldSize r t :=
    congrArg (Signature.mk _) (Scalar.toRepr_of_fromRepr decoded).symm
  have negated := (C.verifyPrehashed_replace_s_iff symmetric separates hr hs hk ht distinct signer
    equation).mp (by rw [← encoded]; exact verified)
  have sum := (val_eq_sub_iff C hs).mpr negated
  rw [Scalar.fromBeBytes_toRepr C.order_le] at sum
  have := s.val_lt
  -- An odd `n` is no sum `2 v ± 2 ^ k` unless `k = 0`.
  have lowest : 8 * (C.fieldSize - 1 - i) + j = 0 := by
    by_contra positive
    have even : 2 ^ (8 * (C.fieldSize - 1 - i) + j) % 2 = 0 :=
      Nat.mod_eq_zero_of_dvd (dvd_pow_self 2 positive)
    omega
  omega

/-- On the toy curve, whose scalars take one byte, `s[0] ^= 1` verifies: bit 0 of the last byte. -/
theorem flipped_s_verifies_only_at_lowest_bit_toy :
    (ToyCurve.key.verifyKey ToyCurve.curve).verifyDigest ToyCurve.curve ⟨[5], rfl⟩
        (Signature.flipS ⟨⟨[1], rfl⟩, ⟨[6], rfl⟩⟩ 0 0) = .ok () ∧
      0 = ToyCurve.curve.fieldSize - 1 ∧ 0 = 0 :=
  ⟨ToyCurve.verifies_one_seven, flipped_s_verifies_only_at_lowest_bit ToyCurve.curve ToyCurve.nonce
    ToyCurve.affineX_neg (fun p q same => (ToyCurve.affineX_eq_iff p q).mp same) (by decide)
    ToyCurve.key ⟨[5], rfl⟩ ToyCurve.key_signs_five (by decide) (by decide)
    ToyCurve.verifies_one_seven⟩

/-- On the toy curve, `s = 6` of key 1's signature may become `7 = 13 - 6`, and no other byte. -/
theorem tampered_s_verifies_iff_toy :
    (ToyCurve.key.verifyKey ToyCurve.curve).verifyDigest ToyCurve.curve ⟨[5], rfl⟩
        ⟨⟨[1], rfl⟩, ⟨[7], rfl⟩⟩ = .ok () ∧
      (ToyCurve.key.verifyKey ToyCurve.curve).verifyDigest ToyCurve.curve ⟨[5], rfl⟩
        ⟨⟨[1], rfl⟩, ⟨[8], rfl⟩⟩ = .error Error.new := by
  have judged := tampered_s_verifies_iff ToyCurve.curve ToyCurve.nonce ToyCurve.affineX_neg
    (fun p q same => (ToyCurve.affineX_eq_iff p q).mp same) ToyCurve.key ⟨[5], rfl⟩
    ToyCurve.key_signs_five
  refine ⟨(judged ⟨[7], rfl⟩ (by decide) (by decide)).mpr rfl, ?_⟩
  cases verified : (ToyCurve.key.verifyKey ToyCurve.curve).verifyDigest ToyCurve.curve ⟨[5], rfl⟩
    ⟨⟨[1], rfl⟩, ⟨[8], rfl⟩⟩ with
  | error error => rfl
  | ok _ => exact absurd ((judged ⟨[8], rfl⟩ (by decide) (by decide)).mp verified) (by decide)

/--
On the toy curve, key 1 signs the digest `[5]` as `(1, 6)`. Flipping bit 0 of the one byte of
`s`, the tweak of the `ecdsa_verify_invalid_s` test, gives `7 = 13 - 6`, and flipping bit 2 of
`r` gives 5: both are valid components, and both tampered signatures verify.
-/
theorem tamper_rejection_counterexample :
    ToyCurve.key.trySignDigest ToyCurve.curve ToyCurve.nonce ⟨[5], rfl⟩ =
        .ok ⟨⟨[1], rfl⟩, ⟨[6], rfl⟩⟩ ∧
      (0 < fromBeBytes [6 ^^^ 1] ∧ fromBeBytes [6 ^^^ 1] < 13) ∧
      (ToyCurve.key.verifyKey ToyCurve.curve).verifyDigest ToyCurve.curve ⟨[5], rfl⟩
        ⟨⟨[1], rfl⟩, ⟨[6 ^^^ 1], rfl⟩⟩ = .ok () ∧
      (0 < fromBeBytes [1 ^^^ 4] ∧ fromBeBytes [1 ^^^ 4] < 13) ∧
      (ToyCurve.key.verifyKey ToyCurve.curve).verifyDigest ToyCurve.curve ⟨[5], rfl⟩
        ⟨⟨[1 ^^^ 4], rfl⟩, ⟨[6], rfl⟩⟩ = .ok () := by
  -- For the flip of `r` the verifier inverts `s = 6` modulo 13: `6⁻¹ = 11`.
  have inv6 : (6 : ZMod 13)⁻¹ = 11 := inv_eq_of_mul_eq_one_right (by decide)
  refine ⟨ToyCurve.key_signs_five, by decide, ToyCurve.verifies_one_seven, by decide, ?_⟩
  show ToyCurve.curve.verifyPrehashed ((1 : ZMod 13) • ToyCurve.curve.generator) 5
    (Signature.fromScalars ToyCurve.curve.fieldSize (5 : ZMod 13) 6) = .ok ()
  rw [Curve.verifyPrehashed_publicKey _ _ _ (by decide) (by decide), inv6]
  rfl

end SigningKey

end Ecdsa
