import Ecdsa.Dev.ToyCurve

/-! The public point fixes the secret scalar, and a nonce reused for two digests discloses it. -/

namespace Ecdsa.SigningKey

variable {n : ℕ} [Fact n.Prime] {P : Type} [AddCommGroup P] [Module (ZMod n) P] (C : Curve n P)
  (generateK : NonZeroScalar n → FieldBytes C.fieldSize → List UInt8 → NonZeroScalar n)

/-- `verify_key` tells signing keys apart: `d G = d' G` only for `d = d'`, as `G` has order `n`. -/
theorem verifyKey_injective : Function.Injective (SigningKey.verifyKey (n := n) C) := by
  rintro ⟨⟨d, hd⟩⟩ ⟨⟨d', hd'⟩⟩ same
  -- `(d - d') G = 0` with `G ≠ 0` over the field `ZMod n` forces `d - d' = 0`.
  have vanish : (d - d') • C.generator = 0 := by
    rw [sub_smul, sub_eq_zero]
    exact congrArg VerifyKey.inner same
  have equal := sub_eq_zero.mp ((smul_eq_zero.mp vanish).resolve_right C.generator_ne_zero)
  subst equal
  rfl

/-- On the toy curve, the keys 1 and 2 have distinct verify keys. -/
theorem verifyKey_injective_toy :
    SigningKey.verifyKey ToyCurve.curve ⟨⟨1, by decide⟩⟩ ≠
      SigningKey.verifyKey ToyCurve.curve ⟨⟨2, by decide⟩⟩ :=
  fun same => absurd (verifyKey_injective ToyCurve.curve same) (by decide)

/--
Two signatures made with one nonce for digests of different message scalars share `r`, differ
in `s`, and give the secret scalar as `d = (s₂ z₁ - s₁ z₂) / (r (s₁ - s₂))`, from public values
only. `generate_k` must therefore never answer one nonce for two such digests.
-/
theorem shared_nonce_discloses_key (key : SigningKey n) (digest₁ digest₂ : FieldBytes C.fieldSize)
    {signature₁ signature₂ : Signature C.fieldSize}
    (reused : generateK key.secretScalar digest₁ [] = generateK key.secretScalar digest₂ [])
    (differ : C.fromDigest digest₁ ≠ C.fromDigest digest₂)
    (signed₁ : key.trySignDigest C generateK digest₁ = .ok signature₁)
    (signed₂ : key.trySignDigest C generateK digest₂ = .ok signature₂) :
    signature₂.r = signature₁.r ∧ ∃ r s₁ s₂, Scalar.fromRepr n signature₁.r = some r ∧
      Scalar.fromRepr n signature₁.s = some s₁ ∧ Scalar.fromRepr n signature₂.s = some s₂ ∧
      s₁ ≠ s₂ ∧ key.secretScalar.scalar =
        (s₂ * C.fromDigest digest₁ - s₁ * C.fromDigest digest₂) / (r * (s₁ - s₂)) := by
  obtain ⟨r, s₁, hr, -, -, rfl, signer₁, equation₁⟩ := C.trySignPrehashed_equation signed₁
  obtain ⟨r', s₂, -, -, -, rfl, signer₂, equation₂⟩ := C.trySignPrehashed_equation signed₂
  -- One nonce gives one `r`, so the two signing equations differ only in `z` and `s`.
  rw [← reused] at signer₂ equation₂
  rw [← signer₁] at signer₂
  subst r'
  have distinct : s₁ ≠ s₂ := by
    rintro rfl
    exact differ (by linear_combination equation₁ - equation₂)
  refine ⟨rfl, r, s₁, s₂, Scalar.fromRepr_toRepr C.order_le r,
    Scalar.fromRepr_toRepr C.order_le s₁, Scalar.fromRepr_toRepr C.order_le s₂, distinct, ?_⟩
  -- `s₂ z₁ - s₁ z₂ = s₂ (s₁ k - r d) - s₁ (s₂ k - r d) = r d (s₁ - s₂)`.
  rw [eq_div_iff (mul_ne_zero hr (sub_ne_zero.mpr distinct))]
  linear_combination s₁ * equation₂ - s₂ * equation₁

/--
On the toy curve, whose nonce is always 1, key 1's signatures `(1, 6)` of `[5]` and `(1, 7)` of
`[6]` give `d = (7 · 5 - 6 · 6) / (1 · (6 - 7)) = 1`.
-/
theorem shared_nonce_discloses_key_toy :
    (⟨[1], rfl⟩ : FieldBytes ToyCurve.curve.fieldSize) = ⟨[1], rfl⟩ ∧ ∃ r s₁ s₂,
      Scalar.fromRepr 13 (⟨[1], rfl⟩ : FieldBytes ToyCurve.curve.fieldSize) = some r ∧
      Scalar.fromRepr 13 (⟨[6], rfl⟩ : FieldBytes ToyCurve.curve.fieldSize) = some s₁ ∧
      Scalar.fromRepr 13 (⟨[7], rfl⟩ : FieldBytes ToyCurve.curve.fieldSize) = some s₂ ∧
      s₁ ≠ s₂ ∧ ToyCurve.key.secretScalar.scalar =
        (s₂ * ToyCurve.curve.fromDigest ⟨[5], rfl⟩ - s₁ * ToyCurve.curve.fromDigest ⟨[6], rfl⟩) /
          (r * (s₁ - s₂)) :=
  shared_nonce_discloses_key ToyCurve.curve ToyCurve.nonce ToyCurve.key ⟨[5], rfl⟩ ⟨[6], rfl⟩ rfl
    (by decide)
    ToyCurve.key_signs_five ToyCurve.key_signs_six

end Ecdsa.SigningKey
