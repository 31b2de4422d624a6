import Ecdsa.Proofs.Malleability

/-! What verification accepts: a key's signature for other message scalars, other `s` for an `r`. -/

namespace Ecdsa

namespace Curve

variable {n : ℕ} [Fact n.Prime] {P : Type} [AddCommGroup P] [Module (ZMod n) P] (C : Curve n P)

/--
Against `d G`, a signature of `k` for `z` is judged, for a message scalar `z'`, on the multiple
`(z' + r d) / (z + r d)` of `k G`.
-/
theorem verifyPrehashed_replace_z {d k z r s : ZMod n} (hr : r ≠ 0) (hs : s ≠ 0) (hk : k ≠ 0)
    (signer : r = C.affineX (k • C.generator)) (equation : z + r * d = s * k) (z' : ZMod n) :
    C.verifyPrehashed (d • C.generator) z' (Signature.fromScalars C.fieldSize r s) = .ok () ↔
      C.affineX (((z' + r * d) * (z + r * d)⁻¹) • k • C.generator) =
        C.affineX (k • C.generator) := by
  -- The verifier's point `s⁻¹ (z' + r d) G` is `(z' + r d) (s k)⁻¹ (k G)`.
  have scaled : (s⁻¹ * (z' + r * d)) • C.generator =
      ((z' + r * d) * (z + r * d)⁻¹) • k • C.generator := by
    rw [smul_smul, equation, mul_inv, ← mul_assoc, inv_mul_cancel_right₀ hk, mul_comm s⁻¹]
  rw [verifyPrehashed_publicKey_eq_ok_iff C d z' hr hs, scaled, ← signer]

/--
Against `d G`, a signature of `k` for `z` verifies for a message scalar `z'` exactly when
`z' = z`, or `z' = -z - 2 r d`, which sends the verifier's point to `-(k G)`.
-/
theorem verifyPrehashed_replace_z_iff (symmetric : C.XSymmetric) (separates : C.XSeparates)
    {d k z r s : ZMod n} (hr : r ≠ 0) (hs : s ≠ 0) (hk : k ≠ 0)
    (signer : r = C.affineX (k • C.generator)) (equation : z + r * d = s * k) (z' : ZMod n) :
    C.verifyPrehashed (d • C.generator) z' (Signature.fromScalars C.fieldSize r s) = .ok () ↔
      z' = z ∨ z' = -z - 2 * r * d := by
  have point : k • C.generator ≠ 0 := smul_ne_zero hk C.generator_ne_zero
  have base : z + r * d ≠ 0 := by
    rw [equation]
    exact mul_ne_zero hs hk
  rw [C.verifyPrehashed_replace_z hr hs hk signer equation]
  constructor
  · -- Only the factors `±1` keep the x-coordinate of `k G`.
    intro same
    rcases C.scale_eq_one_or_neg_one separates point same with one | negOne
    · exact .inl (add_right_cancel ((mul_inv_eq_one₀ base).mp one))
    · exact .inr (by linear_combination (mul_inv_eq_iff_eq_mul₀ base).mp negOne)
  · -- `z' = z` gives the factor `1`, and `z' = -z - 2 r d` the factor `-1`.
    rintro (rfl | rfl)
    · rw [mul_inv_cancel₀ base, one_smul]
    · rw [show -z - 2 * r * d + r * d = -(z + r * d) by ring, neg_mul, mul_inv_cancel₀ base,
        neg_one_smul, symmetric]

/--
For a first half decoding to a non-zero `ρ`, the verify primitive accepts `(r, t)` exactly when
`t` decodes to a non-zero `τ` for which `τ⁻¹ (z G + ρ q)` has the x-coordinate `ρ`.
-/
theorem verifyPrehashed_with_r_iff {q : P} {z ρ : ZMod n} {r t : FieldBytes C.fieldSize}
    (decoded : Scalar.fromRepr n r = some ρ) (nonzero : ρ ≠ 0) :
    C.verifyPrehashed q z ⟨r, t⟩ = .ok () ↔
      ∃ τ, Scalar.fromRepr n t = some τ ∧ τ ≠ 0 ∧
        C.affineX (τ⁻¹ • (z • C.generator + ρ • q)) = ρ := by
  -- The verifier's `u1 G + u2 q` is `τ⁻¹ (z G + ρ q)`.
  have point (τ : ZMod n) :
      (z * τ⁻¹) • C.generator + (ρ * τ⁻¹) • q = τ⁻¹ • (z • C.generator + ρ • q) := by
    rw [smul_add, smul_smul, smul_smul, mul_comm z, mul_comm ρ]
  simp only [C.verifyPrehashed_eq_ok_iff, decoded, Option.some.injEq, exists_and_left,
    exists_eq_left', point, nonzero, ne_eq, not_false_eq_true, true_and]

end Curve

namespace VerifyKey

variable {n : ℕ} [Fact n.Prime] {P : Type} [AddCommGroup P] [Module (ZMod n) P] (C : Curve n P)

/--
Whoever made it, once `(r, s)` is accepted for a verify key `Q` and a digest, `(r, t)` is accepted
exactly for `t` spelling `s` or `n - s`, as long as the verifier's point `z G + r Q` is not zero:
no third second half verifies with the same `r`.
-/
theorem verifyDigest_same_r_iff (symmetric : C.XSymmetric) (separates : C.XSeparates)
    (key : VerifyKey P) (digest : FieldBytes C.fieldSize) {r s : FieldBytes C.fieldSize}
    {ρ : ZMod n} (decoded : Scalar.fromRepr n r = some ρ)
    (nondegenerate : C.fromDigest digest • C.generator + ρ • key.inner ≠ 0)
    (accepted : key.verifyDigest C digest ⟨r, s⟩ = .ok ()) (t : FieldBytes C.fieldSize) :
    key.verifyDigest C digest ⟨r, t⟩ = .ok () ↔
      t = s ∨ fromBeBytes t.toList = n - fromBeBytes s.toList := by
  have nonzero : ρ ≠ 0 := by
    obtain ⟨ρ', -, decoded', -, hρ', -⟩ := C.verifyPrehashed_ok_decodes accepted
    rwa [Option.some.inj (decoded.symm.trans decoded')]
  obtain ⟨σ, decodedS, hσ, checkS⟩ := (C.verifyPrehashed_with_r_iff decoded nonzero).mp accepted
  have base : σ⁻¹ • (C.fromDigest digest • C.generator + ρ • key.inner) ≠ 0 :=
    smul_ne_zero (inv_ne_zero hσ) nondegenerate
  rw [verifyDigest, C.verifyPrehashed_with_r_iff decoded nonzero]
  constructor
  · -- `τ⁻¹ W = (τ⁻¹ σ) (σ⁻¹ W)` keeps the x-coordinate of `σ⁻¹ W` only for `τ⁻¹ σ = ±1`.
    rintro ⟨τ, decodedT, hτ, checkT⟩
    have same :
        C.affineX ((τ⁻¹ * σ) • σ⁻¹ • (C.fromDigest digest • C.generator + ρ • key.inner)) =
          C.affineX (σ⁻¹ • (C.fromDigest digest • C.generator + ρ • key.inner)) := by
      rw [smul_smul, mul_assoc, mul_inv_cancel₀ hσ, mul_one, checkT, checkS]
    rcases C.scale_eq_one_or_neg_one separates base same with one | negOne
    · left
      rw [← Scalar.toRepr_of_fromRepr decodedT, ← Scalar.toRepr_of_fromRepr decodedS,
        (inv_mul_eq_one₀ hτ).mp one]
    · right
      rw [inv_mul_eq_iff_eq_mul₀ hτ, mul_neg_one] at negOne
      have flipped : τ = -σ := by rw [negOne, neg_neg]
      exact (Scalar.fromRepr_eq_neg_iff decodedS hσ).mp (flipped ▸ decodedT)
  · -- `s` itself, and `n - s`, which decodes to `-σ` and turns `σ⁻¹ W` into its opposite.
    rintro (rfl | spelled)
    · exact ⟨σ, decodedS, hσ, checkS⟩
    · refine ⟨-σ, (Scalar.fromRepr_eq_neg_iff decodedS hσ).mpr spelled, neg_ne_zero.mpr hσ, ?_⟩
      rw [inv_neg, neg_smul, symmetric, checkS]

/-- On the toy curve, with `(1, 6)` accepted for `[5]`, `(1, 7)` is accepted too: `7 = 13 - 6`. -/
theorem verifyDigest_same_r_iff_toy :
    (Scalar.fromRepr 13 (⟨[1], rfl⟩ : FieldBytes ToyCurve.curve.fieldSize) = some 1 ∧
      ToyCurve.curve.fromDigest ⟨[5], rfl⟩ • ToyCurve.curve.generator +
          (1 : ZMod 13) • (ToyCurve.key.verifyKey ToyCurve.curve).inner ≠ 0 ∧
      (ToyCurve.key.verifyKey ToyCurve.curve).verifyDigest ToyCurve.curve ⟨[5], rfl⟩
        ⟨⟨[1], rfl⟩, ⟨[6], rfl⟩⟩ = .ok ()) ∧
    ((ToyCurve.key.verifyKey ToyCurve.curve).verifyDigest ToyCurve.curve ⟨[5], rfl⟩
        ⟨⟨[1], rfl⟩, ⟨[7], rfl⟩⟩ = .ok () ↔
      (⟨[7], rfl⟩ : FieldBytes ToyCurve.curve.fieldSize) = ⟨[6], rfl⟩ ∨
        fromBeBytes [7] = 13 - fromBeBytes [6]) :=
  ⟨⟨rfl, by decide, ToyCurve.verifies_one_six⟩,
    verifyDigest_same_r_iff ToyCurve.curve ToyCurve.affineX_neg
      (fun p q same => (ToyCurve.affineX_eq_iff p q).mp same) _ _
      (show Scalar.fromRepr 13 (⟨[1], rfl⟩ : FieldBytes ToyCurve.curve.fieldSize) = some 1 from rfl)
      (by decide) ToyCurve.verifies_one_six _⟩

/--
On every curve whose x-coordinate is the same for a point and its opposite, as on every
Weierstrass curve: once `(r, s)` is accepted for a verify key and a digest, whoever made it, so is
`(r, t)` for the `t` spelling `n - s`. The code does not normalize `s`, so every signature it
accepts has a second valid form.
-/
theorem negated_s_verifies (symmetric : C.XSymmetric) (key : VerifyKey P)
    (digest : FieldBytes C.fieldSize) {r s : FieldBytes C.fieldSize}
    (accepted : key.verifyDigest C digest ⟨r, s⟩ = .ok ()) (t : FieldBytes C.fieldSize)
    (negated : fromBeBytes t.toList = n - fromBeBytes s.toList) :
    key.verifyDigest C digest ⟨r, t⟩ = .ok () := by
  obtain ⟨ρ, -, decoded, -, nonzero, -⟩ := C.verifyPrehashed_ok_decodes accepted
  obtain ⟨σ, decodedS, hσ, checkS⟩ := (C.verifyPrehashed_with_r_iff decoded nonzero).mp accepted
  -- `t` decodes to `-σ`, which sends the verifier's point `σ⁻¹ W` to its opposite.
  refine (C.verifyPrehashed_with_r_iff decoded nonzero).mpr ⟨-σ,
    (Scalar.fromRepr_eq_neg_iff decodedS hσ).mpr negated, neg_ne_zero.mpr hσ, ?_⟩
  rw [inv_neg, neg_smul, symmetric, checkS]

/-- On the toy curve, `(1, 6)` is accepted for `[5]`, and so is `(1, 7)` with `7 = 13 - 6`. -/
theorem negated_s_verifies_toy :
    fromBeBytes [7] = 13 - fromBeBytes [6] ∧
      (ToyCurve.key.verifyKey ToyCurve.curve).verifyDigest ToyCurve.curve ⟨[5], rfl⟩
        ⟨⟨[1], rfl⟩, ⟨[7], rfl⟩⟩ = .ok () :=
  ⟨by decide, negated_s_verifies ToyCurve.curve ToyCurve.affineX_neg _ ⟨[5], rfl⟩
    ToyCurve.verifies_one_six ⟨[7], rfl⟩ (by decide)⟩

end VerifyKey

namespace SigningKey

variable {n : ℕ} [Fact n.Prime] {P : Type} [AddCommGroup P] [Module (ZMod n) P] (C : Curve n P)
  (generateK : NonZeroScalar n → FieldBytes C.fieldSize → List UInt8 → NonZeroScalar n)

/--
A signature the key made for one digest verifies for another digest exactly when that digest's
message scalar is the same, or is `-z - 2 r d` for the signature's `r` and the secret `d`.
-/
theorem signature_verifies_other_digest_iff (symmetric : C.XSymmetric)
    (separates : C.XSeparates) (key : SigningKey n) (digest : FieldBytes C.fieldSize)
    {signature : Signature C.fieldSize}
    (signed : key.trySignDigest C generateK digest = .ok signature) :
    ∃ r, Scalar.fromRepr n signature.r = some r ∧ ∀ other : FieldBytes C.fieldSize,
      (key.verifyKey C).verifyDigest C other signature = .ok () ↔
        C.fromDigest other = C.fromDigest digest ∨
          C.fromDigest other = -C.fromDigest digest - 2 * r * key.secretScalar.scalar := by
  obtain ⟨r, s, hr, hs, hk, rfl, signer, equation⟩ := C.trySignPrehashed_equation signed
  exact ⟨r, Scalar.fromRepr_toRepr C.order_le r, fun other =>
    C.verifyPrehashed_replace_z_iff symmetric separates hr hs hk signer equation _⟩

/--
On every curve, P-256 and secp256k1 among them: a signature the key made for a digest with
message scalar `z` verifies for a digest with message scalar `z'` exactly when
`((z' + r d) / (z + r d)) R` has the x-coordinate of the nonce point `R = k G`.
-/
theorem signature_verifies_other_digest_iff_shared_x (key : SigningKey n)
    (digest : FieldBytes C.fieldSize) {signature : Signature C.fieldSize}
    (signed : key.trySignDigest C generateK digest = .ok signature) :
    ∃ r, Scalar.fromRepr n signature.r = some r ∧ ∀ other : FieldBytes C.fieldSize,
      (key.verifyKey C).verifyDigest C other signature = .ok () ↔
        C.affineX (((C.fromDigest other + r * key.secretScalar.scalar) *
              (C.fromDigest digest + r * key.secretScalar.scalar)⁻¹) •
            (generateK key.secretScalar digest []).scalar • C.generator) =
          C.affineX ((generateK key.secretScalar digest []).scalar • C.generator) := by
  obtain ⟨r, s, hr, hs, hk, rfl, signer, equation⟩ := C.trySignPrehashed_equation signed
  exact ⟨r, Scalar.fromRepr_toRepr C.order_le r, fun other =>
    C.verifyPrehashed_replace_z hr hs hk signer equation _⟩

/-- On the toy curve, key 1's signature `(1, 6)` of `[5]` against the multiples of its `R`. -/
theorem signature_verifies_other_digest_iff_shared_x_toy :
    ∃ r, Scalar.fromRepr 13 (⟨[1], rfl⟩ : FieldBytes ToyCurve.curve.fieldSize) = some r ∧
      ∀ other : FieldBytes ToyCurve.curve.fieldSize,
        (ToyCurve.key.verifyKey ToyCurve.curve).verifyDigest ToyCurve.curve other
            ⟨⟨[1], rfl⟩, ⟨[6], rfl⟩⟩ = .ok () ↔
          ToyCurve.curve.affineX
              (((ToyCurve.curve.fromDigest other + r * ToyCurve.key.secretScalar.scalar) *
                  (ToyCurve.curve.fromDigest ⟨[5], rfl⟩ + r * ToyCurve.key.secretScalar.scalar)⁻¹) •
                (ToyCurve.nonce ToyCurve.key.secretScalar ⟨[5], rfl⟩ []).scalar •
                  ToyCurve.curve.generator) =
            ToyCurve.curve.affineX
              ((ToyCurve.nonce ToyCurve.key.secretScalar ⟨[5], rfl⟩ []).scalar •
                ToyCurve.curve.generator) :=
  signature_verifies_other_digest_iff_shared_x ToyCurve.curve ToyCurve.nonce ToyCurve.key
    ⟨[5], rfl⟩ ToyCurve.key_signs_five

/-- On the toy curve, key 1's signature `(1, 6)` of `[5]` is judged against `z' = 5` or `z' = 6`. -/
theorem signature_verifies_other_digest_iff_toy :
    ∃ r, Scalar.fromRepr 13 (⟨[1], rfl⟩ : FieldBytes ToyCurve.curve.fieldSize) = some r ∧
      ∀ other : FieldBytes ToyCurve.curve.fieldSize,
        (ToyCurve.key.verifyKey ToyCurve.curve).verifyDigest ToyCurve.curve other
            ⟨⟨[1], rfl⟩, ⟨[6], rfl⟩⟩ = .ok () ↔
          ToyCurve.curve.fromDigest other = ToyCurve.curve.fromDigest ⟨[5], rfl⟩ ∨
            ToyCurve.curve.fromDigest other =
              -ToyCurve.curve.fromDigest ⟨[5], rfl⟩ - 2 * r * ToyCurve.key.secretScalar.scalar :=
  signature_verifies_other_digest_iff ToyCurve.curve ToyCurve.nonce ToyCurve.affineX_neg
    (fun p q same => (ToyCurve.affineX_eq_iff p q).mp same) ToyCurve.key ⟨[5], rfl⟩
    ToyCurve.key_signs_five

end SigningKey

end Ecdsa
