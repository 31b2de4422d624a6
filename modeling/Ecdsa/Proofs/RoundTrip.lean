import Ecdsa.Dev.ToyCurve

/-! What a signing key signs, through any of its four entry points, its verify key accepts. -/

namespace Ecdsa.SigningKey

variable {n : ℕ} [Fact n.Prime] {P : Type} [AddCommGroup P] [Module (ZMod n) P] (C : Curve n P)
  (generateK : NonZeroScalar n → FieldBytes C.fieldSize → List UInt8 → NonZeroScalar n)

/--
Sign/verify round trip: the digest and message paths, deterministic or with any RNG, produce
only signatures that `verify_key` accepts for the same digest or message.
-/
theorem sign_verify_roundtrip (key : SigningKey n) :
    (∀ digest signature, key.trySignDigest C generateK digest = .ok signature →
      (key.verifyKey C).verifyDigest C digest signature = .ok ()) ∧
    (∀ rng digest signature, key.trySignDigestWithRng C generateK rng digest = .ok signature →
      (key.verifyKey C).verifyDigest C digest signature = .ok ()) ∧
    (∀ msg signature, key.trySign C generateK msg = .ok signature →
      (key.verifyKey C).verify C msg signature = .ok ()) ∧
    (∀ rng msg signature, key.trySignWithRng C generateK rng msg = .ok signature →
      (key.verifyKey C).verify C msg signature = .ok ()) :=
  -- Every path signs with the secret scalar and the digest's message scalar, which is what
  -- verification recomputes against the public point `d G`.
  ⟨fun _ _ signed => C.verifyPrehashed_trySignPrehashed signed,
    fun _ _ _ signed => C.verifyPrehashed_trySignPrehashed signed,
    fun _ _ signed => C.verifyPrehashed_trySignPrehashed signed,
    fun _ _ _ signed => C.verifyPrehashed_trySignPrehashed signed⟩

/-- On the toy curve, key 1 signs the digest `[5]` as `(1, 6)`, which its verify key accepts. -/
theorem sign_verify_roundtrip_toy :
    ToyCurve.key.trySignDigest ToyCurve.curve ToyCurve.nonce ⟨[5], rfl⟩ =
        .ok ⟨⟨[1], rfl⟩, ⟨[6], rfl⟩⟩ ∧
      (ToyCurve.key.verifyKey ToyCurve.curve).verifyDigest ToyCurve.curve ⟨[5], rfl⟩
        ⟨⟨[1], rfl⟩, ⟨[6], rfl⟩⟩ = .ok () :=
  ⟨ToyCurve.key_signs_five,
    (sign_verify_roundtrip ToyCurve.curve ToyCurve.nonce ToyCurve.key).1 _ _
      ToyCurve.key_signs_five⟩

end Ecdsa.SigningKey
