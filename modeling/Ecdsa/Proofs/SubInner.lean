import Ecdsa.Proofs.FromDigest

/-! `sub_inner` on every pair of five-limb operands: the value it returns, and when it returns. -/

namespace Ecdsa.MockCurve

variable (MODULUS : Fin 4 → UInt64)

/--
`sub_inner` subtracts the five-limb `R` from `L`, adds `MODULUS` back exactly when `L < R`, and
hands the low 256 bits to `Scalar::try_from`: a scalar it returns holds exactly that value, and
it returns one whenever that value is below `MODULUS`.
-/
theorem subInner_value (l0 l1 l2 l3 l4 r0 r1 r2 r3 r4 : UInt64) :
    (let difference :=
      (wideValue ![l0, l1, l2, l3] l4 + 2 ^ 320 - wideValue ![r0, r1, r2, r3] r4 +
        if wideValue ![l0, l1, l2, l3] l4 < wideValue ![r0, r1, r2, r3] r4 then
          limbsValue MODULUS
        else 0) % 2 ^ 256
    (∀ scalar, subInner MODULUS l0 l1 l2 l3 l4 r0 r1 r2 r3 r4 = some scalar →
        limbsValue scalar.limbs = difference) ∧
      (difference < limbsValue MODULUS →
        ∃ scalar, subInner MODULUS l0 l1 l2 l3 l4 r0 r1 r2 r3 r4 = some scalar ∧
          limbsValue scalar.limbs = difference)) := by
  -- `try_from` is handed limbs of that value, and keeps them when it succeeds.
  obtain ⟨limbs, built, value⟩ := subInner_eq_tryFrom MODULUS l0 l1 l2 l3 l4 r0 r1 r2 r3 r4
  dsimp only
  rw [built, ← value]
  refine ⟨fun scalar found => ?_, fun fits => ⟨⟨limbs, fits⟩, by rw [Scalar.tryFrom, dif_pos fits],
    rfl⟩⟩
  rw [Scalar.tryFrom] at found
  split at found <;> cases found
  rfl

/--
On operands within `MODULUS` of each other, `R ≤ L + MODULUS` and `L < R + MODULUS`, `sub_inner`
never panics and returns `L - R` modulo `MODULUS`. This covers the difference of two canonical
scalars, and the reduction by `R = MODULUS` of a wide value below `2 MODULUS`.
-/
theorem subInner_mod {l0 l1 l2 l3 l4 r0 r1 r2 r3 r4 : UInt64}
    (above : wideValue ![r0, r1, r2, r3] r4 ≤ wideValue ![l0, l1, l2, l3] l4 + limbsValue MODULUS)
    (below : wideValue ![l0, l1, l2, l3] l4 < wideValue ![r0, r1, r2, r3] r4 + limbsValue MODULUS) :
    ∃ scalar, subInner MODULUS l0 l1 l2 l3 l4 r0 r1 r2 r3 r4 = some scalar ∧
      limbsValue scalar.limbs =
        (wideValue ![l0, l1, l2, l3] l4 + limbsValue MODULUS - wideValue ![r0, r1, r2, r3] r4) %
          limbsValue MODULUS := by
  obtain ⟨limbs, built, value⟩ := subInner_eq_tryFrom MODULUS l0 l1 l2 l3 l4 r0 r1 r2 r3 r4
  have := limbsValue_lt MODULUS
  generalize wideValue ![l0, l1, l2, l3] l4 = L at above below value ⊢
  generalize wideValue ![r0, r1, r2, r3] r4 = R at above below value ⊢
  -- `L - R`, plus `MODULUS` after a borrow, lies in `[0, MODULUS)`, so no bit is lost.
  have reduced : limbsValue limbs = (L + limbsValue MODULUS - R) % limbsValue MODULUS := by
    by_cases borrowed : L < R
    · rw [value, if_pos borrowed,
        Nat.mod_eq_of_lt (show L + limbsValue MODULUS - R < limbsValue MODULUS by omega)]
      omega
    · rw [value, if_neg borrowed, show L + limbsValue MODULUS - R = L - R + limbsValue MODULUS by
        omega, Nat.add_mod_right, Nat.mod_eq_of_lt (show L - R < limbsValue MODULUS by omega)]
      omega
  have fits : limbsValue limbs < limbsValue MODULUS := by
    rw [reduced]
    exact Nat.mod_lt _ (by omega)
  exact ⟨⟨limbs, fits⟩, by rw [built, Scalar.tryFrom, dif_pos fits], reduced⟩

/-- At the P-256 order, the wide value `2 ^ 256` (fifth limb 1) reduces to `2 ^ 256 - n`. -/
theorem subInner_mod_p256 :
    (wideValue ![p256Modulus 0, p256Modulus 1, p256Modulus 2, p256Modulus 3] 0 ≤
        wideValue ![0, 0, 0, 0] 1 + limbsValue p256Modulus ∧
      wideValue ![0, 0, 0, 0] 1 <
        wideValue ![p256Modulus 0, p256Modulus 1, p256Modulus 2, p256Modulus 3] 0 +
          limbsValue p256Modulus) ∧
    ∃ scalar, subInner p256Modulus 0 0 0 0 1 (p256Modulus 0) (p256Modulus 1) (p256Modulus 2)
        (p256Modulus 3) 0 = some scalar ∧
      limbsValue scalar.limbs = (wideValue ![0, 0, 0, 0] 1 + limbsValue p256Modulus -
        wideValue ![p256Modulus 0, p256Modulus 1, p256Modulus 2, p256Modulus 3] 0) %
          limbsValue p256Modulus :=
  ⟨⟨by decide, by decide⟩, subInner_mod p256Modulus (by decide) (by decide)⟩

end Ecdsa.MockCurve
