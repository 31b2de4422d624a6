import Ecdsa.Dev.ToyCurve

/-! `SigningKey::new` panics off the field size, and on it accepts exactly the keys' bytes. -/

namespace Ecdsa.SigningKey

variable {n : ℕ} [NeZero n] {P : Type} [AddCommGroup P] [Module (ZMod n) P] (C : Curve n P)

/-- The serializations of keys are the field-size slices spelling an integer in `[1, n - 1]`. -/
theorem exists_toBytes_iff {bytes : List UInt8} :
    (∃ key : SigningKey n, (key.toBytes C).toList = bytes) ↔
      bytes.length = C.fieldSize ∧ 1 ≤ fromBeBytes bytes ∧ fromBeBytes bytes ≤ n - 1 := by
  constructor
  · -- A key's bytes have the field size and spell its non-zero canonical representative.
    rintro ⟨key, rfl⟩
    have positive := (ZMod.val_pos (n := n)).mpr key.secretScalar.ne_zero
    have below := key.secretScalar.scalar.val_lt
    simp only [toBytes, NonZeroScalar.toBytes, Scalar.fromBeBytes_toRepr C.order_le,
      Mathlib.Vector.toList_length, true_and]
    omega
  · -- Such an integer is a non-zero scalar whose encoding is the slice itself.
    rintro ⟨fits, positive, bounded⟩
    have below : fromBeBytes bytes < n := by have := NeZero.ne n; omega
    have value := ZMod.val_cast_of_lt below
    refine ⟨⟨⟨fromBeBytes bytes, fun zero => ?_⟩⟩, ?_⟩
    · rw [zero, ZMod.val_zero] at value
      omega
    · simp only [toBytes, NonZeroScalar.toBytes, Scalar.toRepr, Mathlib.Vector.toList_mk, value]
      rw [← fits, toBeBytes_fromBeBytes]

/--
`SigningKey::new` panics inside `try_into` on every slice whose length is not the field size. On a
slice of the field size it is `Ok` exactly when the slice spells an integer in `[1, n - 1]`, with a
key whose `to_bytes` gives the slice back, and `Err(Error)` otherwise. Every key's `to_bytes`
rebuilds that key.
-/
theorem new_outcome :
    (∀ bytes : List UInt8, (new C bytes).map (Except.map fun key => (key.toBytes C).toList) =
      if bytes.length = C.fieldSize then
        some (if 1 ≤ fromBeBytes bytes ∧ fromBeBytes bytes ≤ n - 1 then .ok bytes
          else .error Error.new)
      else none) ∧
    ∀ key : SigningKey n, new C (key.toBytes C).toList = some (.ok key) := by
  refine ⟨fun bytes => ?_, fun key => (new_eq_ok_iff C).mpr rfl⟩
  by_cases fits : bytes.length = C.fieldSize
  · rw [if_pos fits]
    split
    · -- An accepted slice is some key's serialization, which `new` returns.
      obtain ⟨key, serialized⟩ := (exists_toBytes_iff C).mpr ⟨fits, ‹_›⟩
      rw [(new_eq_ok_iff C).mpr serialized]
      simp [Except.map, serialized]
    · -- Any other slice of the field size is no key's serialization, so `new` returns `Err`.
      rename_i rejected
      cases built : new C bytes with
      | none => exact absurd ((new_eq_none_iff C).mp built) (not_not.mpr fits)
      | some outcome =>
        cases outcome with
        | error error => rfl
        | ok key =>
          exact absurd ((exists_toBytes_iff C).mp ⟨key, (new_eq_ok_iff C).mp built⟩).2 rejected
  · -- Off the field size the length conversion panics before any decoding.
    rw [if_neg fits, (new_eq_none_iff C).mpr fits]
    rfl

/-- On the toy curve, whose scalars take one byte, a two-byte slice panics; key 1 is rebuilt. -/
theorem new_outcome_toy :
    (new ToyCurve.curve [0, 6]).map
        (Except.map fun key : SigningKey 13 => (key.toBytes ToyCurve.curve).toList) = none ∧
      new ToyCurve.curve (ToyCurve.key.toBytes ToyCurve.curve).toList = some (.ok ToyCurve.key) :=
  ⟨((new_outcome ToyCurve.curve).1 [0, 6]).trans (by rfl), (new_outcome ToyCurve.curve).2 _⟩

end Ecdsa.SigningKey
