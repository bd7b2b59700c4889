import OpenTerms.Common.Base64
import OpenTerms.Common.Crypto
import OpenTerms.Common.JsonText

/-!
# A signed receipt

A key pair, the digest and the signature of one receipt, and the JWKS
that verifies it: the data the theorems are evaluated on. The hash and
the signature are those of SHA-256 and Ed25519 on that receipt's
canonical bytes; `crypto` knows no others.
-/

namespace OpenTerms

namespace Sample

def seed : Bytes :=
  [157, 97, 177, 157, 239, 253, 90, 96, 186, 132, 74, 244, 146, 236, 44, 196, 68, 73, 197, 105,
    123, 50, 105, 25, 112, 59, 172, 3, 28, 174, 127, 96]

def publicKey : Bytes :=
  [215, 90, 152, 1, 130, 177, 10, 183, 213, 75, 254, 211, 201, 100, 7, 58, 14, 225, 114, 243,
    218, 166, 35, 37, 175, 2, 26, 104, 247, 7, 81, 26]

def digest : Bytes :=
  [16, 151, 157, 157, 32, 121, 151, 175, 192, 0, 28, 132, 219, 16, 179, 143, 191, 143, 146, 1,
    25, 182, 126, 215, 172, 179, 130, 224, 223, 22, 1, 212]

def signature : Bytes :=
  [161, 26, 171, 200, 24, 118, 161, 115, 176, 130, 80, 178, 75, 224, 168, 234, 251, 213, 163,
    176, 6, 132, 193, 241, 245, 122, 171, 3, 226, 28, 63, 93, 248, 81, 181, 104, 19, 144, 36,
    150, 112, 233, 133, 37, 191, 131, 137, 174, 127, 92, 174, 65, 249, 242, 149, 252, 145, 155,
    64, 229, 103, 134, 142, 6]

/-- SHA-256 and Ed25519 where the sample uses them. -/
def crypto : Crypto where
  sha256 _ := digest
  publicKey _ := publicKey
  sign _ _ := signature
  verify key _ sig := decide (key = publicKey ∧ sig = signature)

theorem seed_length : seed.length = 32 := by decide

def keyPair : KeyPair crypto where
  seed := seed
  seed_length := seed_length
  publicKey_length := by decide
  sign_length _ := rfl
  verify_sign _ := by simp [crypto]

/-- The members every payload must have. -/
def required : List JsStr :=
  ["workspace_id", "agent_id", "action_type", "terms_url", "terms_hash", "timestamp",
    "pricing_version", "receipt_id", "amount_charged", "created_at"].map lit

/-- A payload whose required members are all `1`. -/
def payload (context : Doc) : List (JsStr × Doc) :=
  required.map (fun k => (k, .num (.int 1))) ++ [(lit "action_context", context)]

/-- The canonical bytes of the payload with the empty context. -/
def canonicalBytes : Bytes :=
  lit "\x7b\"action_context\":\x7b\x7d,\"action_type\":1,\"agent_id\":1,\"amount_charged\":1,\"created_at\":1,\"pricing_version\":1,\"receipt_id\":1,\"terms_hash\":1,\"terms_url\":1,\"timestamp\":1,\"workspace_id\":1\x7d"

/-- The signed receipt, the signature being of the empty context. -/
def receipt (context : Doc) : List (JsStr × Doc) :=
  payload context ++ [(lit "canonical_hash", .str (hex digest)),
    (lit "signature", .str (Base64.encodeUrl signature)), (lit "key_id", .str (lit "k1"))]

def jwk : Doc :=
  .obj [(lit "kty", .str (lit "OKP")), (lit "crv", .str (lit "Ed25519")),
    (lit "x", .str (Base64.encodeUrl publicKey)), (lit "kid", .str (lit "k1")),
    (lit "use", .str (lit "sig"))]

def jwks : List (JsStr × Doc) := [(lit "keys", .arr [jwk])]

end Sample

end OpenTerms
