import Ecdsa.Curve
import Mathlib.Algebra.Module.Basic
import Mathlib.Algebra.NoZeroSMulDivisors.Basic
import Mathlib.Tactic.FieldSimp
import Mathlib.Tactic.LinearCombination

/-! Verification keys, and the verification equation against a public point `d G`. -/

namespace Ecdsa

/-- ECDSA verify key (`VerifyKey<C>`): a public point. -/
structure VerifyKey (P : Type) where
  /-- The public key (`PublicKey<C>`), as its affine point. -/
  inner : P

namespace VerifyKey

variable {n : ℕ} {P : Type} [AddCommGroup P] [Module (ZMod n) P] (C : Curve n P)

/-- `DigestVerifier::verify_digest`: the message scalar is the curve's reduction of the digest. -/
def verifyDigest (key : VerifyKey P) (digest : FieldBytes C.fieldSize)
    (signature : Signature C.fieldSize) : Except Error Unit :=
  C.verifyPrehashed key.inner (C.fromDigest digest) signature

/-- `Verifier::verify`: the message is hashed with the curve's digest first. -/
def verify (key : VerifyKey P) (msg : List UInt8) (signature : Signature C.fieldSize) :
    Except Error Unit :=
  key.verifyDigest C (C.digest msg) signature

end VerifyKey

namespace Curve

variable {n : ℕ} {P : Type} [AddCommGroup P] [Module (ZMod n) P] (C : Curve n P)

/-- Against the public point `d G`, the two multiplications of verification are one. -/
theorem verify_point (d z r s : ZMod n) :
    (z * s⁻¹) • C.generator + (r * s⁻¹) • (d • C.generator) =
      (s⁻¹ * (z + r * d)) • C.generator := by
  -- `u1 G + u2 (d G) = (u1 + u2 d) G`.
  rw [smul_smul, ← add_smul]
  ring_nf

/-- Against `d G`, a signature of non-zero scalars is judged by one point `s⁻¹ (z + r d) G`. -/
theorem verifyPrehashed_publicKey [NeZero n] {r s : ZMod n} (d z : ZMod n)
    (hr : r ≠ 0) (hs : s ≠ 0) :
    C.verifyPrehashed (d • C.generator) z (Signature.fromScalars C.fieldSize r s) =
      if C.affineX ((s⁻¹ * (z + r * d)) • C.generator) = r then .ok ()
      else .error Error.new := by
  rw [verifyPrehashed_fromScalars C _ z hr hs, verify_point]

/-- Against `d G`, such a signature is accepted exactly when that point has the x-coordinate `r`. -/
theorem verifyPrehashed_publicKey_eq_ok_iff [NeZero n] {r s : ZMod n} (d z : ZMod n)
    (hr : r ≠ 0) (hs : s ≠ 0) :
    C.verifyPrehashed (d • C.generator) z (Signature.fromScalars C.fieldSize r s) = .ok () ↔
      C.affineX ((s⁻¹ * (z + r * d)) • C.generator) = r := by
  rw [verifyPrehashed_publicKey C d z hr hs]
  split <;> simp_all

variable [Fact n.Prime]

/-- Over the field `ZMod n`, a multiple vanishes only for the zero scalar or the zero point. -/
instance noZeroSMulDivisors_of_prime : NoZeroSMulDivisors (ZMod n) P :=
  GroupWithZero.toNoZeroSMulDivisors

/-- Undoing `s = k⁻¹ w` recovers the ephemeral scalar, when `s` is not zero. -/
theorem inv_signed_mul {k w : ZMod n} (signed : k⁻¹ * w ≠ 0) : (k⁻¹ * w)⁻¹ * w = k := by
  -- A non-zero product has non-zero factors, so both inverses cancel.
  have hk : k ≠ 0 := fun zero => signed (by simp [zero])
  have hw : w ≠ 0 := fun zero => signed (by simp [zero])
  field_simp

/-- A successful signature satisfies the signing equation `s k = z + r d` with `r = (k G).x`. -/
theorem trySignPrehashed_equation {d k z : ZMod n} {signature : Signature C.fieldSize}
    (signed : C.trySignPrehashed d k z = .ok signature) :
    ∃ r s, r ≠ 0 ∧ s ≠ 0 ∧ k ≠ 0 ∧ signature = Signature.fromScalars C.fieldSize r s ∧
      r = C.affineX (k • C.generator) ∧ z + r * d = s * k := by
  obtain ⟨hr, hs, rfl⟩ := (C.trySignPrehashed_eq_ok).mp signed
  have hk : k ≠ 0 := fun zero => hs (by simp [zero])
  refine ⟨_, _, hr, hs, hk, rfl, rfl, ?_⟩
  field_simp

/-- With one secret and one nonce, the primitive's signature for `z` is made for no other. -/
theorem trySignPrehashed_same_iff {d k z z' : ZMod n} {signature : Signature C.fieldSize}
    (signed : C.trySignPrehashed d k z = .ok signature) :
    C.trySignPrehashed d k z' = .ok signature ↔ z' = z := by
  refine ⟨fun again => ?_, fun same => same ▸ signed⟩
  obtain ⟨r, s, -, hs, hk, rfl, signer, equation⟩ := C.trySignPrehashed_equation signed
  obtain ⟨r', s', -, -, -, same, signer', equation'⟩ := C.trySignPrehashed_equation again
  -- Both signatures share `r = (k G).x`, so their second halves, and then `z`, agree.
  have halves : s' = s := by
    have decoded := congrArg (fun signature => Scalar.fromRepr n signature.s) same
    simpa [Signature.fromScalars, Scalar.fromRepr_toRepr C.order_le] using decoded.symm
  rw [halves, signer', ← signer] at equation'
  linear_combination equation' - equation

/-- What the sign primitive produces with a non-zero `k`, the verify primitive accepts for `d G`. -/
theorem verifyPrehashed_trySignPrehashed {d k z : ZMod n} {signature : Signature C.fieldSize}
    (signed : C.trySignPrehashed d k z = .ok signature) :
    C.verifyPrehashed (d • C.generator) z signature = .ok () := by
  -- The verifier's point `s⁻¹ (z + r d) G` is the signer's `k G`.
  obtain ⟨hr, hs, rfl⟩ := (C.trySignPrehashed_eq_ok).mp signed
  rw [verifyPrehashed_publicKey C d z hr hs, inv_signed_mul hs, if_pos rfl]

end Curve

end Ecdsa
