import OpenTerms.Common.Text

/-!
# The cryptographic libraries

SHA-256 and Ed25519 are called, not implemented: `Crypto` stands for the
primitives both SDKs import. `KeyPair` is what RFC 8032 promises of one
key pair, and `Collision` the one event the guarantees exclude.
-/

namespace OpenTerms

/-- The primitives: a hash, and Ed25519 on raw keys. -/
structure Crypto where
  sha256 : Bytes → Bytes
  /-- The public key of a 32-byte seed. -/
  publicKey : Bytes → Bytes
  /-- The signature of a message under a seed. -/
  sign : Bytes → Bytes → Bytes
  /-- Whether a signature of a message verifies under a public key. -/
  verify : Bytes → Bytes → Bytes → Bool

/-- A seed whose public key and signatures have their RFC 8032 lengths,
and whose signatures verify. -/
structure KeyPair (crypto : Crypto) where
  seed : Bytes
  seed_length : seed.length = 32
  publicKey_length : (crypto.publicKey seed).length = 32
  sign_length : ∀ m, (crypto.sign seed m).length = 64
  verify_sign : ∀ m, crypto.verify (crypto.publicKey seed) m (crypto.sign seed m) = true

/-- Two distinct inputs with one hash. -/
def Collision (crypto : Crypto) (a b : Bytes) : Prop :=
  a ≠ b ∧ crypto.sha256 a = crypto.sha256 b

/-- The eight bytes before the hash in a signed message. -/
def domainSeparator : Bytes := lit "ORSv0.1" ++ [0]

/-- The error codes of verification, which both SDKs return. -/
inductive VerifyError where
  | hashMismatch
  | keyNotFound
  | unsupportedKeyType
  | invalidKeyLength
  | invalidSignatureLength
  | invalidSignature
  deriving DecidableEq

/-- A code as the results spell it. -/
def VerifyError.code : VerifyError → String
  | .hashMismatch => "HASH_MISMATCH"
  | .keyNotFound => "KEY_NOT_FOUND"
  | .unsupportedKeyType => "UNSUPPORTED_KEY_TYPE"
  | .invalidKeyLength => "INVALID_KEY_LENGTH"
  | .invalidSignatureLength => "INVALID_SIGNATURE_LENGTH"
  | .invalidSignature => "INVALID_SIGNATURE"

end OpenTerms
