import Ecdsa.Signer
import Ecdsa.Proofs.Acceptance

/-! The older `Signer` against `SigningKey`: alike exactly where their digest reductions agree. -/

namespace Ecdsa.Signer

variable {n : ℕ} [Fact n.Prime] {P : Type} [AddCommGroup P] [Module (ZMod n) P] (C : Curve n P)
  (hashedScalar : FieldBytes C.fieldSize → ZMod n)
  (generateK : NonZeroScalar n → FieldBytes C.fieldSize → List UInt8 → NonZeroScalar n)

/--
A signature of the older signer verifies under the verify key of its scalar for a digest exactly
when `from_digest` of that digest is the scalar its primitive signed, or `-z - 2 r d`. So it
interoperates with `VerifyKey` only where its primitive reduces digests as `from_digest` does.
-/
theorem signature_verifies_iff (symmetric : C.XSymmetric) (separates : C.XSeparates)
    (signer : Signer n) (digest : FieldBytes C.fieldSize) {signature : Signature C.fieldSize}
    (signed : signer.trySignDigest C hashedScalar generateK digest = .ok signature) :
    ∃ r, Scalar.fromRepr n signature.r = some r ∧ ∀ other : FieldBytes C.fieldSize,
      (signer.toSigningKey.verifyKey C).verifyDigest C other signature = .ok () ↔
        C.fromDigest other = hashedScalar digest ∨
          C.fromDigest other = -hashedScalar digest - 2 * r * signer.secretScalar.scalar := by
  obtain ⟨r, s, hr, hs, hk, rfl, ephemeral, equation⟩ := C.trySignPrehashed_equation signed
  exact ⟨r, Scalar.fromRepr_toRepr C.order_le r, fun other =>
    C.verifyPrehashed_replace_z_iff symmetric separates hr hs hk ephemeral equation _⟩

/--
On the toy curve, signer 1 with a primitive reducing as `from_digest` does signs `[5]` as
`(1, 6)`, which is then judged against `z' = 5` or `z' = -5 - 2 = 6`.
-/
theorem signature_verifies_iff_toy :
    ∃ r, Scalar.fromRepr 13 (⟨[1], rfl⟩ : FieldBytes ToyCurve.curve.fieldSize) = some r ∧
      ∀ other : FieldBytes ToyCurve.curve.fieldSize,
        ((⟨⟨1, by decide⟩⟩ : Signer 13).toSigningKey.verifyKey ToyCurve.curve).verifyDigest
            ToyCurve.curve other ⟨⟨[1], rfl⟩, ⟨[6], rfl⟩⟩ = .ok () ↔
          ToyCurve.curve.fromDigest other = ToyCurve.curve.fromDigest ⟨[5], rfl⟩ ∨
            ToyCurve.curve.fromDigest other =
              -ToyCurve.curve.fromDigest ⟨[5], rfl⟩ - 2 * r * (1 : ZMod 13) :=
  signature_verifies_iff ToyCurve.curve ToyCurve.curve.fromDigest ToyCurve.nonce
    ToyCurve.affineX_neg (fun p q same => (ToyCurve.affineX_eq_iff p q).mp same)
    ⟨⟨1, by decide⟩⟩ ⟨[5], rfl⟩ ToyCurve.key_signs_five

/--
On every curve, P-256 and secp256k1 among them: a signature of the older signer verifies under
the verify key of its scalar for a digest exactly when `((z' + r d) / (z + r d)) R` has the
x-coordinate of the nonce point `R = k G`, for the scalar `z` its primitive signed and the
scalar `z'` that `from_digest` gives.
-/
theorem signature_verifies_iff_shared_x (signer : Signer n) (digest : FieldBytes C.fieldSize)
    {signature : Signature C.fieldSize}
    (signed : signer.trySignDigest C hashedScalar generateK digest = .ok signature) :
    ∃ r, Scalar.fromRepr n signature.r = some r ∧ ∀ other : FieldBytes C.fieldSize,
      (signer.toSigningKey.verifyKey C).verifyDigest C other signature = .ok () ↔
        C.affineX (((C.fromDigest other + r * signer.secretScalar.scalar) *
              (hashedScalar digest + r * signer.secretScalar.scalar)⁻¹) •
            (generateK signer.secretScalar digest []).scalar • C.generator) =
          C.affineX ((generateK signer.secretScalar digest []).scalar • C.generator) := by
  obtain ⟨r, s, hr, hs, hk, rfl, ephemeral, equation⟩ := C.trySignPrehashed_equation signed
  exact ⟨r, Scalar.fromRepr_toRepr C.order_le r, fun other =>
    C.verifyPrehashed_replace_z hr hs hk ephemeral equation _⟩

/-- On the toy curve, signer 1's `(1, 6)` of `[5]`, with `from_digest` as its reduction. -/
theorem signature_verifies_iff_shared_x_toy :
    ∃ r, Scalar.fromRepr 13 (⟨[1], rfl⟩ : FieldBytes ToyCurve.curve.fieldSize) = some r ∧
      ∀ other : FieldBytes ToyCurve.curve.fieldSize,
        ((⟨⟨1, by decide⟩⟩ : Signer 13).toSigningKey.verifyKey ToyCurve.curve).verifyDigest
            ToyCurve.curve other ⟨⟨[1], rfl⟩, ⟨[6], rfl⟩⟩ = .ok () ↔
          ToyCurve.curve.affineX
              (((ToyCurve.curve.fromDigest other + r * 1) *
                  (ToyCurve.curve.fromDigest ⟨[5], rfl⟩ + r * 1)⁻¹) •
                (ToyCurve.nonce ⟨1, by decide⟩ ⟨[5], rfl⟩ []).scalar • ToyCurve.curve.generator) =
            ToyCurve.curve.affineX
              ((ToyCurve.nonce ⟨1, by decide⟩ ⟨[5], rfl⟩ []).scalar • ToyCurve.curve.generator) :=
  signature_verifies_iff_shared_x ToyCurve.curve ToyCurve.curve.fromDigest ToyCurve.nonce
    ⟨⟨1, by decide⟩⟩ ⟨[5], rfl⟩ ToyCurve.key_signs_five

/--
The older signer and `SigningKey` holding the same scalar, with the same `generate_k`, give the
same signature for a digest, deterministically or with any RNG, exactly when the older
primitive's reduction of that digest is `from_digest`'s.
-/
theorem trySignDigest_agrees_iff (signer : Signer n) :
    (∀ digest signature, signer.trySignDigest C hashedScalar generateK digest = .ok signature →
      (signer.toSigningKey.trySignDigest C generateK digest = .ok signature ↔
        C.fromDigest digest = hashedScalar digest)) ∧
    (∀ rng digest signature,
      signer.trySignDigestWithRng C hashedScalar generateK rng digest = .ok signature →
      (signer.toSigningKey.trySignDigestWithRng C generateK rng digest = .ok signature ↔
        C.fromDigest digest = hashedScalar digest)) :=
  -- Both sign with the same secret and nonce, so only the message scalar can tell them apart.
  ⟨fun _ _ signed => C.trySignPrehashed_same_iff signed,
    fun _ _ _ signed => C.trySignPrehashed_same_iff signed⟩

/--
On the toy curve, a primitive reducing `[5]` to `6` makes signer 1 sign it as `(1, 7)`, which
`SigningKey` does not give, since `from_digest` reduces `[5]` to `5`.
-/
theorem trySignDigest_agrees_iff_toy :
    Signer.trySignDigest ToyCurve.curve (fun digest => ToyCurve.curve.fromDigest digest + 1)
        ToyCurve.nonce ⟨⟨1, by decide⟩⟩ ⟨[5], rfl⟩ = .ok ⟨⟨[1], rfl⟩, ⟨[7], rfl⟩⟩ ∧
      (SigningKey.trySignDigest ToyCurve.curve ToyCurve.nonce
          (⟨⟨1, by decide⟩⟩ : Signer 13).toSigningKey ⟨[5], rfl⟩ = .ok ⟨⟨[1], rfl⟩, ⟨[7], rfl⟩⟩ ↔
        ToyCurve.curve.fromDigest ⟨[5], rfl⟩ = ToyCurve.curve.fromDigest ⟨[5], rfl⟩ + 1) :=
  ⟨ToyCurve.key_signs_six, (trySignDigest_agrees_iff ToyCurve.curve
    (fun digest => ToyCurve.curve.fromDigest digest + 1) ToyCurve.nonce ⟨⟨1, by decide⟩⟩).1 _ _
    ToyCurve.key_signs_six⟩

end Ecdsa.Signer
