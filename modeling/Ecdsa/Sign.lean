import Ecdsa.Verify

/-! Signing keys: construction from bytes, serialization, and the four signing entry points. -/

namespace Ecdsa

/-- ECDSA signing key (`SigningKey<C>`): one secret scalar, never zero. -/
@[ext]
structure SigningKey (n : ℕ) where
  secretScalar : NonZeroScalar n
  deriving DecidableEq

/--
`bytes.try_into()` into `&FieldBytes<C>`: under generic-array 0.14 this is core's blanket
`TryFrom` over `From<&[T]> for &GenericArray`, which asserts the slice length. It never returns
`Err`; `none` is its panic on a slice of any other length than the field size.
-/
def FieldBytes.tryFrom (w : ℕ) (bytes : List UInt8) : Option (FieldBytes w) :=
  if fits : bytes.length = w then some ⟨bytes, fits⟩ else none

/-- A slice converts, without the panic, to exactly the array holding its bytes. -/
theorem FieldBytes.tryFrom_eq_some {w : ℕ} {bytes : List UInt8} {field : FieldBytes w} :
    FieldBytes.tryFrom w bytes = some field ↔ field.toList = bytes := by
  -- An array of the field size carries the length the conversion checks.
  unfold FieldBytes.tryFrom
  split
  · exact ⟨fun found => by cases found; rfl, fun same => by cases same; rfl⟩
  · rename_i unfit
    exact ⟨nofun, fun same => absurd (same ▸ field.toList_length) unfit⟩

/-- The secret-scalar decoding succeeds exactly on canonical encodings of its scalar. -/
theorem NonZeroScalar.fromFieldBytes_eq_some {n w : ℕ} {bytes : FieldBytes w}
    {secret : NonZeroScalar n} :
    NonZeroScalar.fromFieldBytes n bytes = some secret ↔
      Scalar.fromRepr n bytes = some secret.scalar := by
  -- The zero check cannot reject a scalar that is already known to be non-zero.
  rcases secret with ⟨scalar, nonzero⟩
  unfold NonZeroScalar.fromFieldBytes
  cases Scalar.fromRepr n bytes with
  | none => simp
  | some decoded => by_cases zero : decoded = 0 <;> simp_all [eq_comm]

namespace SigningKey

variable {n : ℕ} {P : Type} [AddCommGroup P] [Module (ZMod n) P] (C : Curve n P)

/--
`SigningKey::new`: a raw scalar serialized as a byte slice. The outer `none` is the panic of
`try_into` on a slice of another length, so `.ok()` only ever sees an array; the decoding of that
array then gives `Ok` or `Err(Error)`.
-/
def new (bytes : List UInt8) : Option (Except Error (SigningKey n)) :=
  (FieldBytes.tryFrom C.fieldSize bytes).map fun field =>
    match NonZeroScalar.fromFieldBytes n field with
    | some secretScalar => .ok { secretScalar }
    | none => .error Error.new

/-- `SigningKey::verify_key`: the public point `G * d`. -/
def verifyKey (key : SigningKey n) : VerifyKey P :=
  ⟨key.secretScalar.scalar • C.generator⟩

/-- `SigningKey::to_bytes` -/
def toBytes (key : SigningKey n) : FieldBytes C.fieldSize :=
  key.secretScalar.toBytes C.fieldSize

/-- Construction panics exactly on slices whose length is not the field size. -/
theorem new_eq_none_iff {bytes : List UInt8} :
    (new C bytes : Option (Except Error (SigningKey n))) = none ↔ bytes.length ≠ C.fieldSize := by
  -- Only the length conversion can panic, and it does so exactly off the field size.
  unfold new FieldBytes.tryFrom
  split <;> simp_all

/-- Construction succeeds with a key exactly when the slice is that key's serialization. -/
theorem new_eq_ok_iff [NeZero n] {bytes : List UInt8} {key : SigningKey n} :
    new C bytes = some (.ok key) ↔ (key.toBytes C).toList = bytes := by
  -- Decoding a canonical encoding and encoding the decoded scalar are inverse.
  have decoded : (FieldBytes.tryFrom C.fieldSize bytes).bind (NonZeroScalar.fromFieldBytes n) =
      some key.secretScalar ↔ (key.toBytes C).toList = bytes := by
    simp only [Option.bind_eq_some, FieldBytes.tryFrom_eq_some,
      NonZeroScalar.fromFieldBytes_eq_some]
    constructor
    · rintro ⟨field, rfl, found⟩
      rw [toBytes, NonZeroScalar.toBytes, Scalar.toRepr_of_fromRepr found]
    · rintro rfl
      exact ⟨_, rfl, Scalar.fromRepr_toRepr C.order_le _⟩
  rw [← decoded]
  unfold new
  cases FieldBytes.tryFrom C.fieldSize bytes with
  | none => simp
  | some field =>
    cases found : NonZeroScalar.fromFieldBytes n field <;> simp [found, SigningKey.ext_iff]

/-- `RandomizedDigestSigner` fills a zeroed `FieldBytes` buffer with the RNG's bytes. -/
def emptyFieldBytes : FieldBytes C.fieldSize := Mathlib.Vector.replicate C.fieldSize 0

variable (generateK : NonZeroScalar n → FieldBytes C.fieldSize → List UInt8 → NonZeroScalar n)

/--
`DigestSigner::try_sign_digest`: the ephemeral scalar comes from `generate_k` (RFC 6979 §3.2)
with no added entropy, and the message scalar from the curve's reduction of the digest.
-/
def trySignDigest (key : SigningKey n) (digest : FieldBytes C.fieldSize) :
    Except Error (Signature C.fieldSize) :=
  let ephemeralScalar := generateK key.secretScalar digest []
  let msgScalar := C.fromDigest digest
  C.trySignPrehashed key.secretScalar.scalar ephemeralScalar.scalar msgScalar

/-- `Signer::try_sign`: the message is hashed with the curve's digest first. -/
def trySign (key : SigningKey n) (msg : List UInt8) : Except Error (Signature C.fieldSize) :=
  key.trySignDigest C generateK (C.digest msg)

/--
`RandomizedDigestSigner::try_sign_digest_with_rng`: as `try_sign_digest`, with the bytes the
RNG writes over a zeroed buffer passed to `generate_k` as added entropy (RFC 6979 §3.6).
-/
def trySignDigestWithRng (key : SigningKey n) (rng : FieldBytes C.fieldSize → FieldBytes C.fieldSize)
    (digest : FieldBytes C.fieldSize) : Except Error (Signature C.fieldSize) :=
  let addedEntropy := rng (emptyFieldBytes C)
  let ephemeralScalar := generateK key.secretScalar digest addedEntropy.toList
  let msgScalar := C.fromDigest digest
  C.trySignPrehashed key.secretScalar.scalar ephemeralScalar.scalar msgScalar

/-- `RandomizedSigner::try_sign_with_rng`: the message is hashed with the curve's digest first. -/
def trySignWithRng (key : SigningKey n) (rng : FieldBytes C.fieldSize → FieldBytes C.fieldSize)
    (msg : List UInt8) : Except Error (Signature C.fieldSize) :=
  key.trySignDigestWithRng C generateK rng (C.digest msg)

end SigningKey

end Ecdsa
