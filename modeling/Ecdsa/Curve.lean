import Ecdsa.Bytes
import Mathlib.Data.ZMod.Basic
import Mathlib.Algebra.Module.Defs

/-! The capabilities the signing core requires of a curve, and the ECDSA primitives over them. -/

namespace Ecdsa

/-- The opaque error of every fallible operation (`ecdsa::Error`). -/
structure Error where
  deriving DecidableEq, Repr

/-- `Error::new()` -/
def Error.new : Error := {}

/-- `FieldBytes<C>`: a serialized scalar or field element of `w` bytes. -/
abbrev FieldBytes (w : ℕ) := Mathlib.Vector UInt8 w

section Scalar

variable {n w : ℕ}

/--
Modelled from the spec: `Scalar::from_repr`, the canonical fixed-width decoding of a scalar.

The bytes are read as a big-endian integer, which is accepted only when fully reduced below `n`.
-/
def Scalar.fromRepr (n : ℕ) (bytes : FieldBytes w) : Option (ZMod n) :=
  if fromBeBytes bytes.toList < n then some (fromBeBytes bytes.toList : ZMod n) else none

/-- Modelled from the spec: `Scalar::to_repr`, a scalar as `w` big-endian bytes, zero-padded. -/
def Scalar.toRepr (w : ℕ) (scalar : ZMod n) : FieldBytes w :=
  ⟨toBeBytes w scalar.val, length_toBeBytes w scalar.val⟩

/-- A scalar's encoding spells its canonical representative. -/
theorem Scalar.fromBeBytes_toRepr [NeZero n] (fits : n ≤ 256 ^ w) (scalar : ZMod n) :
    fromBeBytes (Scalar.toRepr w scalar).toList = scalar.val := by
  -- The representative is below the order, hence below the width.
  simp [Scalar.toRepr, fromBeBytes_toBeBytes, Nat.mod_eq_of_lt (scalar.val_lt.trans_le fits)]

/-- Decoding succeeds exactly on integers below the order, with their residue. -/
theorem Scalar.fromRepr_eq_some {bytes : FieldBytes w} {scalar : ZMod n} :
    Scalar.fromRepr n bytes = some scalar ↔
      fromBeBytes bytes.toList < n ∧ (fromBeBytes bytes.toList : ZMod n) = scalar := by
  unfold Scalar.fromRepr
  split <;> simp [*]

/-- Decoding an encoded scalar gives the scalar back. -/
theorem Scalar.fromRepr_toRepr [NeZero n] (fits : n ≤ 256 ^ w) (scalar : ZMod n) :
    Scalar.fromRepr n (Scalar.toRepr w scalar) = some scalar :=
  -- The encoding spells the representative, which is below the order.
  Scalar.fromRepr_eq_some.mpr
    ⟨by simpa [Scalar.fromBeBytes_toRepr fits] using scalar.val_lt, by
      simp [Scalar.fromBeBytes_toRepr fits]⟩

/-- A decoded non-zero scalar is spelled by an integer in `[1, n)`. -/
theorem Scalar.fromRepr_bounds {bytes : FieldBytes w} {scalar : ZMod n}
    (found : Scalar.fromRepr n bytes = some scalar) (nonzero : scalar ≠ 0) :
    0 < fromBeBytes bytes.toList ∧ fromBeBytes bytes.toList < n := by
  -- The integer is below `n` by the check, and not zero since its scalar is not.
  obtain ⟨below, rfl⟩ := Scalar.fromRepr_eq_some.mp found
  exact ⟨Nat.pos_of_ne_zero fun zero => nonzero (by rw [zero, Nat.cast_zero]), below⟩

/-- Bytes decode to `-σ`, for `σ ≠ 0` decoded from `s`, exactly when they spell `n` minus `s`. -/
theorem Scalar.fromRepr_eq_neg_iff [NeZero n] {bytes s : FieldBytes w} {σ : ZMod n}
    (decoded : Scalar.fromRepr n s = some σ) (nonzero : σ ≠ 0) :
    Scalar.fromRepr n bytes = some (-σ) ↔ fromBeBytes bytes.toList = n - fromBeBytes s.toList := by
  -- Below `n` a residue is its own integer, and `-σ` is the integer `n - σ`.
  obtain ⟨belowS, rfl⟩ := Scalar.fromRepr_eq_some.mp decoded
  haveI : NeZero (fromBeBytes s.toList : ZMod n) := ⟨nonzero⟩
  have negated := ZMod.val_neg_of_ne_zero (fromBeBytes s.toList : ZMod n)
  rw [ZMod.val_cast_of_lt belowS] at negated
  have positive := (Scalar.fromRepr_bounds decoded nonzero).1
  rw [Scalar.fromRepr_eq_some, ← (ZMod.val_injective n).eq_iff, negated]
  constructor
  · rintro ⟨below, same⟩
    rwa [ZMod.val_cast_of_lt below] at same
  · intro same
    have below : fromBeBytes bytes.toList < n := by omega
    exact ⟨below, by rw [ZMod.val_cast_of_lt below, same]⟩

/-- Encoding a decoded scalar gives the bytes back. -/
theorem Scalar.toRepr_of_fromRepr {bytes : FieldBytes w} {scalar : ZMod n}
    (found : Scalar.fromRepr n bytes = some scalar) : Scalar.toRepr w scalar = bytes := by
  -- A canonical integer is its own representative, and writing it at width `w` restores it.
  obtain ⟨below, rfl⟩ := Scalar.fromRepr_eq_some.mp found
  apply Mathlib.Vector.eq
  simp only [Scalar.toRepr, Mathlib.Vector.toList_mk, ZMod.val_cast_of_lt below]
  simpa using toBeBytes_fromBeBytes bytes.toList

end Scalar

/-- A scalar that is not zero (`NonZeroScalar<C>`), as secret and ephemeral scalars are. -/
structure NonZeroScalar (n : ℕ) where
  /-- The scalar itself, `NonZeroScalar::as_ref`. -/
  scalar : ZMod n
  ne_zero : scalar ≠ 0
  deriving DecidableEq

/--
Modelled from the spec: `NonZeroScalar::from_field_bytes`, the decoding of a secret scalar.

It fails on a non-canonical encoding and on zero.
-/
def NonZeroScalar.fromFieldBytes (n : ℕ) {w : ℕ} (bytes : FieldBytes w) :
    Option (NonZeroScalar n) :=
  (Scalar.fromRepr n bytes).bind fun scalar =>
    if zero : scalar = 0 then none else some ⟨scalar, zero⟩

/-- `NonZeroScalar::to_bytes` -/
def NonZeroScalar.toBytes {n : ℕ} (w : ℕ) (secret : NonZeroScalar n) : FieldBytes w :=
  Scalar.toRepr w secret.scalar

/-- An ECDSA signature (`Signature<C>`): the fixed-width encodings `r ∥ s` of its two scalars. -/
structure Signature (w : ℕ) where
  r : FieldBytes w
  s : FieldBytes w
  deriving DecidableEq

/-- Modelled from the spec: `Signature::from_scalars`, each scalar zero-padded to `w` bytes. -/
def Signature.fromScalars {n : ℕ} (w : ℕ) (r s : ZMod n) : Signature w :=
  ⟨Scalar.toRepr w r, Scalar.toRepr w s⟩

/--
What the core requires of a curve whose points `P` form a group of prime order `n`.

Scalars `ZMod n` act on the points; point encodings and the field arithmetic stay behind
`affineX`, and the digest behind `fromDigest` and `digest`.
-/
structure Curve (n : ℕ) (P : Type) [AddCommGroup P] [Module (ZMod n) P] where
  /-- `C::FieldSize`: the byte width of a serialized scalar. -/
  fieldSize : ℕ
  /-- Every scalar has a `fieldSize`-byte encoding. -/
  order_le : n ≤ 256 ^ fieldSize
  /-- `AffinePoint::generator()` -/
  generator : P
  /-- The generator has order `n`, not one. -/
  generator_ne_zero : generator ≠ 0
  /-- The affine x-coordinate of a point, reduced modulo `n` to a scalar. -/
  affineX : P → ZMod n
  /-- `Scalar::from_digest`: the curve's reduction of a finalized digest to a scalar. -/
  fromDigest : FieldBytes fieldSize → ZMod n
  /-- `C::Digest::new().chain(msg)`, finalized: the curve's designated message digest. -/
  digest : List UInt8 → FieldBytes fieldSize

namespace Curve

variable {n : ℕ} {P : Type} [AddCommGroup P] [Module (ZMod n) P] (C : Curve n P)

/--
Modelled from the spec: `SignPrimitive::try_sign_prehashed` on the secret scalar `d`, the
ephemeral scalar `k` and the message scalar `z`.
-/
def trySignPrehashed (d k z : ZMod n) : Except Error (Signature C.fieldSize) :=
  -- `R = k * G`, `r = R.x mod n` and `s = k⁻¹ (z + r d) mod n`; a zero `r` or `s` fails.
  let r := C.affineX (k • C.generator)
  let s := k⁻¹ * (z + r * d)
  if r = 0 ∨ s = 0 then .error Error.new else .ok (Signature.fromScalars C.fieldSize r s)

/--
Modelled from the spec: `VerifyPrimitive::verify_prehashed` of a signature for the public
point `q` and the message scalar `z`.

A component that does not decode below `n`, or is zero, is rejected.
-/
def verifyPrehashed (q : P) (z : ZMod n) (signature : Signature C.fieldSize) :
    Except Error Unit :=
  match Scalar.fromRepr n signature.r, Scalar.fromRepr n signature.s with
  | some r, some s =>
    -- `u1 = z s⁻¹`, `u2 = r s⁻¹` and `R' = u1 G + u2 Q`, accepted iff `R'.x mod n = r`.
    if r = 0 ∨ s = 0 then .error Error.new
    else if C.affineX ((z * s⁻¹) • C.generator + (r * s⁻¹) • q) = r then .ok ()
    else .error Error.new
  | _, _ => .error Error.new

/-- Signing succeeds exactly when both components are non-zero, and then encodes them. -/
theorem trySignPrehashed_eq_ok {d k z : ZMod n} {signature : Signature C.fieldSize} :
    C.trySignPrehashed d k z = .ok signature ↔
      C.affineX (k • C.generator) ≠ 0 ∧ k⁻¹ * (z + C.affineX (k • C.generator) * d) ≠ 0 ∧
        signature = Signature.fromScalars C.fieldSize (C.affineX (k • C.generator))
          (k⁻¹ * (z + C.affineX (k • C.generator) * d)) := by
  unfold trySignPrehashed
  dsimp only
  split
  · rename_i zero
    simp only [reduceCtorEq, false_iff, not_and]
    exact fun hr hs _ => zero.elim hr hs
  · rename_i nonzero
    simp only [not_or] at nonzero
    simp [nonzero, eq_comm]

/-- The verify primitive accepts exactly two canonical non-zero components passing the x check. -/
theorem verifyPrehashed_eq_ok_iff {q : P} {z : ZMod n} {signature : Signature C.fieldSize} :
    C.verifyPrehashed q z signature = .ok () ↔
      ∃ r s, Scalar.fromRepr n signature.r = some r ∧ Scalar.fromRepr n signature.s = some s ∧
        r ≠ 0 ∧ s ≠ 0 ∧ C.affineX ((z * s⁻¹) • C.generator + (r * s⁻¹) • q) = r := by
  -- Only the branch with both components decoded can accept, and then by the two checks.
  unfold verifyPrehashed
  cases Scalar.fromRepr n signature.r <;> cases Scalar.fromRepr n signature.s <;>
    simp only [reduceCtorEq, false_iff, Option.some.injEq, exists_eq_left', not_exists,
      false_and, and_false, exists_false, not_false_eq_true, implies_true]
  -- A zero component is rejected whatever the x check says.
  split_ifs <;> simp_all
  tauto

/-- A signature the verify primitive accepts has two canonical, non-zero components. -/
theorem verifyPrehashed_ok_decodes {q : P} {z : ZMod n} {signature : Signature C.fieldSize}
    (accepted : C.verifyPrehashed q z signature = .ok ()) :
    ∃ r s, Scalar.fromRepr n signature.r = some r ∧ Scalar.fromRepr n signature.s = some s ∧
      r ≠ 0 ∧ s ≠ 0 := by
  obtain ⟨r, s, decodedR, decodedS, hr, hs, -⟩ := (C.verifyPrehashed_eq_ok_iff).mp accepted
  exact ⟨r, s, decodedR, decodedS, hr, hs⟩

/-- A signature of two non-zero encoded scalars is judged by the x-coordinate check alone. -/
theorem verifyPrehashed_fromScalars [NeZero n] (q : P) {r s : ZMod n} (z : ZMod n)
    (hr : r ≠ 0) (hs : s ≠ 0) :
    C.verifyPrehashed q z (Signature.fromScalars C.fieldSize r s) =
      if C.affineX ((z * s⁻¹) • C.generator + (r * s⁻¹) • q) = r then .ok ()
      else .error Error.new := by
  -- Both components decode to themselves and pass the zero checks.
  simp [verifyPrehashed, Signature.fromScalars, Scalar.fromRepr_toRepr C.order_le, hr, hs]

end Curve

end Ecdsa
