import Streamhaul.Credentials
import Streamhaul.SignalingServer

/-! The proof that a signaling peer owns the fingerprint it claims: a signature over the session,
the presented key and the challenge that the server has issued to this connection. Ed25519 and
SHA-256 are parameters. -/
namespace Streamhaul

def authDomainTag : Bytes := ascii "SHP-SIG-PEERAUTH"
def authTbsVersion : UInt8 := 0x01
def peerAuthChallengeLen : Nat := 32
def identityProofLen : Nat := 32 + peerAuthChallengeLen + 64

/-- Next to verification and hashing, which bytes are a public key at all. -/
structure KeySuite extends IdentitySuite where
  isPoint : Key → Bool
  isWeak : Key → Bool

structure DeviceIdentity where
  verifyingKey : Key
  fingerprint : Text

def hexText (bytes : Bytes) : Text := bytes.flatMap hexByte

namespace DeviceIdentity

def fromVerifyingKey (suite : KeySuite) (key : Key) : DeviceIdentity :=
  ⟨key,hexText (suite.sha256 key.toList).toList⟩

def fromPublicKeyBytes (suite : KeySuite) (bytes : Key) : Except CryptoError DeviceIdentity :=
  if ¬suite.isPoint bytes then .error (.malformedKey "bytes do not form a valid Ed25519 compressed point")
  else if suite.isWeak bytes then
    .error (.malformedKey "public key is a small-order (weak) point and cannot be trusted")
  else .ok (fromVerifyingKey suite bytes)

end DeviceIdentity

structure IdentityProof where
  devicePubkey : Key
  challenge : Key
  signature : Vector UInt8 64
  deriving DecidableEq

namespace IdentityProof

def buildTbs (sessionId : SessionId) (devicePubkey challenge : Key) : Bytes :=
  authDomainTag ++ [authTbsVersion] ++ sessionId.toList ++ devicePubkey.toList ++ challenge.toList

def create (keystore : Keystore) (sessionId : SessionId) (challenge : Key) : Except CryptoError IdentityProof :=
  match keystore.deviceIdentity with
  | .error e => .error e
  | .ok devicePubkey =>
    match keystore.sign (buildTbs sessionId devicePubkey challenge) with
    | .error e => .error e
    | .ok signature => .ok ⟨devicePubkey,challenge,signature⟩

/-- Only the length is checked here; key and signature are left to `verify`. -/
def decode (bytes : Bytes) : Except CryptoError IdentityProof :=
  if bytes.length ≠ identityProofLen then .error (.malformedSignature "identity proof must be exactly 128 bytes")
  else .ok ⟨vectorAt 32 bytes 0,vectorAt 32 bytes 32,vectorAt 64 bytes 64⟩

def encode (proof : IdentityProof) : Bytes :=
  proof.devicePubkey.toList ++ proof.challenge.toList ++ proof.signature.toList

/-- Challenge, key, fingerprint and signature, in this order; only an invalid key is told apart. -/
def verify (suite : KeySuite) (proof : IdentityProof) (expectedFp : Text) (expectedSessionId : SessionId)
    (expectedChallenge : Key) : Except CryptoError Unit :=
  if proof.challenge ≠ expectedChallenge then .error .signature
  else match DeviceIdentity.fromPublicKeyBytes suite proof.devicePubkey with
    | .error e => .error e
    | .ok identity =>
      if identity.fingerprint.asBytes ≠ expectedFp.asBytes then .error .signature
      else
        let tbs := buildTbs expectedSessionId proof.devicePubkey proof.challenge
        if ¬suite.verifyStrict identity.verifyingKey tbs proof.signature then .error .signature else .ok ()

end IdentityProof

inductive AuthError where
  | malformedProof
  | proofRejected
  | policyDenied
  deriving DecidableEq

namespace IdentityProofAuthenticator

def authenticate (suite : KeySuite) (ctx : AuthContext) : Except AuthError Unit :=
  match IdentityProof.decode ctx.proof with
  | .error _ => .error .malformedProof
  | .ok proof =>
    match proof.verify suite ctx.claimedFp ctx.sessionId ctx.challenge with
    | .error _ => .error .proofRejected
    | .ok () => .ok ()

/-- The server only asks whether the peer may register. -/
def authenticator (suite : KeySuite) : Authenticator := fun ctx => (authenticate suite ctx).isOk

end IdentityProofAuthenticator

section Hex

end Hex

namespace DeviceIdentity

variable {suite : KeySuite} {key : Key} {identity : DeviceIdentity}

end DeviceIdentity

namespace IdentityProof

theorem length_encode (proof : IdentityProof) : proof.encode.length = identityProofLen := by
  simp [encode,identityProofLen,peerAuthChallengeLen]

theorem decode_encode (proof : IdentityProof) : decode proof.encode = .ok proof := by
  have key : vectorAt 32 proof.encode 0 = proof.devicePubkey := by
    have front := vectorAt_append [] (proof.challenge.toList ++ proof.signature.toList) proof.devicePubkey
    simpa [encode] using front
  have challenge : vectorAt 32 proof.encode 32 = proof.challenge := by
    have middle := vectorAt_append proof.devicePubkey.toList proof.signature.toList proof.challenge
    simpa [encode] using middle
  have signature : vectorAt 64 proof.encode 64 = proof.signature := by
    have last := vectorAt_append (proof.devicePubkey.toList ++ proof.challenge.toList) [] proof.signature
    simpa [encode] using last
  rw [decode,if_neg (not_not.mpr proof.length_encode),key,challenge,signature]

theorem length_buildTbs (sessionId : SessionId) (devicePubkey challenge : Key) :
    (buildTbs sessionId devicePubkey challenge).length = 97 := by
  simp [buildTbs,authDomainTag,ascii]

end IdentityProof

namespace IdentityProofAuthenticator

open IdentityProof

end IdentityProofAuthenticator

end Streamhaul
