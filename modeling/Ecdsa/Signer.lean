import Ecdsa.Sign

/-! The older signer of `signer.rs`, whose sign primitive is handed the finalized digest. -/

namespace Ecdsa

/-- ECDSA signer (`Signer<C>`): one secret scalar, never zero. -/
structure Signer (n : ℕ) where
  secretScalar : NonZeroScalar n
  deriving DecidableEq

namespace Signer

variable {n : ℕ} {P : Type} [AddCommGroup P] [Module (ZMod n) P] (C : Curve n P)

/-- `Signer::new`: the secret key's bytes must decode with `NonZeroScalar::from_bytes`. -/
def new (secretKey : FieldBytes C.fieldSize) : Except Error (Signer n) :=
  match NonZeroScalar.fromFieldBytes n secretKey with
  | some secretScalar => .ok { secretScalar }
  | none => .error Error.new

/-- The signing key of `sign.rs` that holds the same secret scalar. -/
def toSigningKey (signer : Signer n) : SigningKey n := ⟨signer.secretScalar⟩

-- The older `SignPrimitive` reduces the finalized digest it is handed by its own `hashedScalar`.
variable (hashedScalar : FieldBytes C.fieldSize → ZMod n)
  (generateK : NonZeroScalar n → FieldBytes C.fieldSize → List UInt8 → NonZeroScalar n)

/--
`DigestSigner::try_sign_digest`: the ephemeral scalar comes from `generate_k` with no added
entropy, and the primitive is handed `digest.finalize()` rather than `from_digest`'s scalar.
-/
def trySignDigest (signer : Signer n) (digest : FieldBytes C.fieldSize) :
    Except Error (Signature C.fieldSize) :=
  let ephemeralScalar := generateK signer.secretScalar digest []
  C.trySignPrehashed signer.secretScalar.scalar ephemeralScalar.scalar (hashedScalar digest)

/-- `Signer::try_sign`: the message is hashed with the curve's digest first. -/
def trySign (signer : Signer n) (msg : List UInt8) : Except Error (Signature C.fieldSize) :=
  signer.trySignDigest C hashedScalar generateK (C.digest msg)

/--
`RandomizedDigestSigner::try_sign_digest_with_rng`: as `try_sign_digest`, with the bytes the RNG
writes over a zeroed `ElementBytes` buffer passed to `generate_k` as added entropy.
-/
def trySignDigestWithRng (signer : Signer n)
    (rng : FieldBytes C.fieldSize → FieldBytes C.fieldSize) (digest : FieldBytes C.fieldSize) :
    Except Error (Signature C.fieldSize) :=
  let addedEntropy := rng (SigningKey.emptyFieldBytes C)
  let ephemeralScalar := generateK signer.secretScalar digest addedEntropy.toList
  C.trySignPrehashed signer.secretScalar.scalar ephemeralScalar.scalar (hashedScalar digest)

/-- `RandomizedSigner::try_sign_with_rng`: the message is hashed with the curve's digest first. -/
def trySignWithRng (signer : Signer n) (rng : FieldBytes C.fieldSize → FieldBytes C.fieldSize)
    (msg : List UInt8) : Except Error (Signature C.fieldSize) :=
  signer.trySignDigestWithRng C hashedScalar generateK rng (C.digest msg)

end Signer

end Ecdsa
