import Ecdsa.Bytes
import Ecdsa.Curve
import Ecdsa.Verify
import Ecdsa.Sign
import Ecdsa.Signer
import Ecdsa.Dev.Limbs
import Ecdsa.Dev.FromDigest
import Ecdsa.Dev.ToyCurve
import Ecdsa.Proofs.SigningKey
import Ecdsa.Proofs.RoundTrip
import Ecdsa.Proofs.Malleability
import Ecdsa.Proofs.FromDigest
import Ecdsa.Proofs.SubInner
import Ecdsa.Proofs.Acceptance
import Ecdsa.Proofs.NonceReuse
import Ecdsa.Proofs.Signer
