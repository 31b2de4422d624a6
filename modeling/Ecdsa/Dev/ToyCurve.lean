import Ecdsa.Sign
import Mathlib

/-! A small Weierstrass curve for concrete runs: `y² = x³ + 3` over `𝔽₇`, of prime order 13. -/

namespace Ecdsa.ToyCurve

/-- An affine point of `y² = x³ + 3` over `𝔽₇`, coordinates below 7, or infinity as `none`. -/
abbrev Point := Option (ℕ × ℕ)

/-- The inverse in `𝔽₇`, as the fifth power (Fermat). -/
def inv (a : ℕ) : ℕ := a ^ 5 % 7

/-- The chord-and-tangent law of a curve `y² = x³ + b` over `𝔽₇`. -/
def add : Point → Point → Point
  | none, q => q
  | p, none => p
  | some (x₁, y₁), some (x₂, y₂) =>
    if x₁ = x₂ then
      -- Opposite points cancel; otherwise the tangent doubles the point.
      if (y₁ + y₂) % 7 = 0 then none
      else
        let slope := 3 * x₁ ^ 2 * inv (2 * y₁) % 7
        let x₃ := (slope ^ 2 + 14 - 2 * x₁) % 7
        some (x₃, (slope * (x₁ + 7 - x₃) + 7 - y₁) % 7)
    else
      let slope := (y₂ + 7 - y₁) * inv (x₂ + 7 - x₁) % 7
      let x₃ := (slope ^ 2 + 14 - x₁ - x₂) % 7
      some (x₃, (slope * (x₁ + 7 - x₃) + 7 - y₁) % 7)

/-- The multiple `i p`, by repeated addition. -/
def mul : ℕ → Point → Point
  | 0, _ => none
  | i + 1, p => add (mul i p) p

/-- The base point `(1, 2)`. -/
def base : Point := some (1, 2)

/-- The affine x-coordinate of `i G`, reduced modulo 13; the point at infinity reads as 0. -/
def affineX (i : ZMod 13) : ZMod 13 :=
  match mul i.val base with
  | none => 0
  | some (x, _) => (x : ZMod 13)

/-- Indexing points by their discrete logarithm turns scalar addition into the curve's law. -/
theorem mul_add (i j : ZMod 13) :
    mul (i + j).val base = add (mul i.val base) (mul j.val base) := by
  revert i j
  decide

/-- Every point of the curve is a multiple of the base point. -/
theorem exists_mul (x y : Fin 7) (onCurve : (y.val ^ 2) % 7 = (x.val ^ 3 + 3) % 7) :
    ∃ i : ZMod 13, mul i.val base = some (x.val, y.val) := by
  revert x y
  decide

/-- As on every Weierstrass curve, a point and its opposite share their x-coordinate. -/
theorem affineX_neg (i : ZMod 13) : affineX (-i) = affineX i := by
  revert i
  decide

/-- Here the reduced x-coordinate tells points apart up to sign, since `7 < 13`. -/
theorem affineX_eq_iff (i j : ZMod 13) : affineX i = affineX j ↔ i = j ∨ i = -j := by
  revert i j
  decide

/-- The group order 13 is prime. -/
instance fact_prime_thirteen : Fact (Nat.Prime 13) := ⟨by norm_num⟩

/-- The toy curve as the core sees it: one-byte scalars, digests reduced modulo 13. -/
def curve : Curve 13 (ZMod 13) where
  fieldSize := 1
  order_le := by decide
  generator := 1
  generator_ne_zero := by decide
  affineX := affineX
  fromDigest digest := (fromBeBytes digest.toList : ZMod 13)
  digest msg := ⟨[msg.foldl (· + ·) 0], rfl⟩

/-- The signing key with secret scalar 1. -/
def key : SigningKey 13 := ⟨⟨1, by decide⟩⟩

/-- A nonce generator that always answers 1: any non-zero answer is allowed of `generate_k`. -/
def nonce (_ : NonZeroScalar 13) (_ : FieldBytes 1) (_ : List UInt8) : NonZeroScalar 13 :=
  ⟨1, by decide⟩

/-- With nonce 1, key 1 signs the digest `[5]` as `r = 1`, `s = 1⁻¹ (5 + 1 · 1) = 6`. -/
theorem key_signs_five :
    key.trySignDigest curve nonce ⟨[5], rfl⟩ = .ok ⟨⟨[1], rfl⟩, ⟨[6], rfl⟩⟩ := by
  simp only [SigningKey.trySignDigest, Curve.trySignPrehashed, nonce, inv_one]
  rfl

/-- With the same nonce 1, key 1 signs the digest `[6]` as `r = 1`, `s = 6 + 1 = 7`. -/
theorem key_signs_six :
    key.trySignDigest curve nonce ⟨[6], rfl⟩ = .ok ⟨⟨[1], rfl⟩, ⟨[7], rfl⟩⟩ := by
  simp only [SigningKey.trySignDigest, Curve.trySignPrehashed, nonce, inv_one]
  rfl

/-- Against key 1 and the digest `[5]`, its own `(1, 6)` verifies: `6⁻¹ (5 + 1) = 1`. -/
theorem verifies_one_six :
    (key.verifyKey curve).verifyDigest curve ⟨[5], rfl⟩ ⟨⟨[1], rfl⟩, ⟨[6], rfl⟩⟩ = .ok () := by
  have inv6 : (6 : ZMod 13)⁻¹ = 11 := inv_eq_of_mul_eq_one_right (by decide)
  show curve.verifyPrehashed ((1 : ZMod 13) • curve.generator) 5
    (Signature.fromScalars curve.fieldSize (1 : ZMod 13) 6) = .ok ()
  rw [Curve.verifyPrehashed_publicKey _ _ _ (by decide) (by decide), inv6]
  rfl

/-- Against key 1 and the digest `[5]`, `(1, 7)` verifies: `7⁻¹ (5 + 1) = 12`, and `12 G = -G`. -/
theorem verifies_one_seven :
    (key.verifyKey curve).verifyDigest curve ⟨[5], rfl⟩ ⟨⟨[1], rfl⟩, ⟨[7], rfl⟩⟩ = .ok () := by
  have inv7 : (7 : ZMod 13)⁻¹ = 2 := inv_eq_of_mul_eq_one_right (by decide)
  show curve.verifyPrehashed ((1 : ZMod 13) • curve.generator) 5
    (Signature.fromScalars curve.fieldSize (1 : ZMod 13) 7) = .ok ()
  rw [Curve.verifyPrehashed_publicKey _ _ _ (by decide) (by decide), inv7]
  rfl

end Ecdsa.ToyCurve
