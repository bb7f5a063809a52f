import Streamhaul.BindCert
import Streamhaul.ChannelCrypto
import Streamhaul.Machine

/-! The Noise handshake with certificates in its payloads: one counter over both directions, a
poison flag, and the trust check at completion. The Noise state machine is a parameter that may
answer anything. -/
namespace Streamhaul

inductive NoisePattern where
  | xk
  | ik
  deriving DecidableEq

def NoisePattern.id : NoisePattern → UInt8
  | .xk => 0x01
  | .ik => 0x02

def buildPrologue (patternId : UInt8) (sessionContext : Bytes) : Bytes :=
  ascii "SHP-NOISE" ++ [0,0x01,patternId,0x01] ++ toBeBytes 2 1 ++ toBeBytes 4 sessionContext.length ++ sessionContext

def sendBindCertAt (role : HandshakeRole) (pattern : NoisePattern) : Nat :=
  match pattern, role with
  | .xk, .initiator => 2
  | .xk, .responder => 1
  | .ik, .initiator => 0
  | .ik, .responder => 1

def receiveBindCertAt (role : HandshakeRole) (pattern : NoisePattern) : Nat :=
  match pattern, role with
  | .xk, .initiator => 1
  | .xk, .responder => 2
  | .ik, .initiator => 1
  | .ik, .responder => 0

/-- The `snow` state machine: what each call returns and the state it leaves. -/
structure Snow (σ : Type) where
  build : NoisePattern → (initiator : Bool) → (localStatic : Key) → (peerStaticPub : Option Key) → (prologue : Bytes) →
    Option σ
  writeMessage : σ → (payload : Bytes) → Option Bytes × σ
  readMessage : σ → (msg : Bytes) → Option Bytes × σ
  isHandshakeFinished : σ → Bool
  getRemoteStatic : σ → Option Bytes
  getHandshakeHash : σ → Bytes
  intoTransportMode : σ → Bool

/-- Ed25519 keys: whether bytes decompress to a point, and whether that point is weak. -/
structure NoiseSuite extends IdentitySuite where
  isPoint : Key → Bool
  isWeak : Key → Bool
  x25519Public : Key → Key

def NoiseSuite.fromPublicKeyBytes (suite : NoiseSuite) (bytes : Key) : Except CryptoError Key :=
  if suite.isPoint bytes = false then .error (.malformedKey "bytes do not form a valid Ed25519 compressed point")
  else if suite.isWeak bytes then
    .error (.malformedKey "public key is a small-order (weak) point and cannot be trusted")
  else .ok bytes

structure NoiseHandshake (σ : Type) where
  state : σ
  role : HandshakeRole
  pattern : NoisePattern
  sendAt : Nat
  receiveAt : Nat
  messageIdx : Nat
  localBindCert : BindCert
  localEd25519Pub : Key
  peerBindCert : Option BindCert
  peerIdentity : Option Key
  failed : Bool
  deriving DecidableEq

namespace NoiseHandshake

/-- What `complete` returns; the channel layer consumes its first part. -/
structure Outcome extends HandshakeOutcome where
  handshakeHash : Key
  peerIdentity : Key
  peerBindCert : BindCert
  pattern : NoisePattern
  deriving DecidableEq

variable {σ : Type} (snow : Snow σ) (suite : NoiseSuite)

def makeBindCert (keystore : Keystore) (localStaticPub : Key) (dtlsCommitment : Option DtlsCommitment) (now : Int) :
    Except CryptoError BindCert :=
  let builder : BindCertBuilder :=
    { BindCertBuilder.new with noiseStatic := some localStaticPub, validForSecs := some bindCertValiditySecs }
  match dtlsCommitment with
  | none => builder.build suite.toIdentitySuite keystore now
  | some commitment => (builder.withDtlsCommitment commitment).build suite.toIdentitySuite keystore now

def newInner (keystore : Keystore) (localStatic : Key) (peerStaticPub : Option Key) (sessionContext : Bytes)
    (dtlsCommitment : Option DtlsCommitment) (now : Int) (pattern : NoisePattern) (role : HandshakeRole) :
    Except CryptoError (NoiseHandshake σ) :=
  match snow.build pattern (role = .initiator) localStatic peerStaticPub (buildPrologue pattern.id sessionContext) with
  | none =>
    .error (.handshakeFailed (if role = .initiator then "snow build_initiator failed" else "snow build_responder failed"))
  | some state =>
    match makeBindCert suite keystore (suite.x25519Public localStatic) dtlsCommitment now with
    | .error e => .error e
    | .ok localBindCert =>
      match keystore.deviceIdentity with
      | .error e => .error e
      | .ok identity => .ok {
          state := state
          role := role
          pattern := pattern
          sendAt := sendBindCertAt role pattern
          receiveAt := receiveBindCertAt role pattern
          messageIdx := 0
          localBindCert := localBindCert
          localEd25519Pub := identity
          peerBindCert := none
          peerIdentity := none
          failed := false }

section Drive

variable (hs : NoiseHandshake σ)

/-- What the next message carries: the identity and its certificate at one index, nothing elsewhere. -/
def nextPayload : Bytes :=
  if hs.messageIdx = hs.sendAt then hs.localEd25519Pub.toList ++ hs.localBindCert.encode else []

def writeMessage : Except CryptoError Bytes × NoiseHandshake σ :=
  if hs.failed = true then (.error (.handshakeFailed "handshake already aborted"),hs)
  else
    match snow.writeMessage hs.state hs.nextPayload with
    | (none,state) => (.error (.handshakeFailed "snow write_message failed"),{ hs with state := state, failed := true })
    | (some buf,state) => (.ok buf,{ hs with state := state, messageIdx := satAdd 255 hs.messageIdx 1 })

def getRemoteStaticNow : Except CryptoError Key :=
  match snow.getRemoteStatic hs.state with
  | none => .error (.handshakeFailed "remote static not available yet at BindCert receive time")
  | some bytes =>
    match toVector 32 bytes with
    | none => .error (.handshakeFailed "remote static is not 32 bytes")
    | some key => .ok key

def readMessageBindCert (payloadBuf : Bytes) (now : Int) : Except CryptoError (NoiseHandshake σ) :=
  if hs.messageIdx = hs.receiveAt then
    if payloadBuf.length < 32 then
      .error (.malformedBindCert "BindCert payload too short for Ed25519 pubkey prefix")
    else
      match suite.fromPublicKeyBytes (vectorAt 32 payloadBuf 0) with
      | .error e => .error e
      | .ok peerIdentity =>
        match BindCert.decode (payloadBuf.drop 32) with
        | .error e => .error e
        | .ok bindCert =>
          match hs.getRemoteStaticNow snow with
          | .error e => .error e
          | .ok liveStatic =>
            match bindCert.verify suite.toIdentitySuite peerIdentity liveStatic now with
            | .error e => .error e
            | .ok () => .ok { hs with peerIdentity := some peerIdentity, peerBindCert := some bindCert }
  else .ok hs

def readMessage (msg : Bytes) (now : Int) : Except CryptoError Unit × NoiseHandshake σ :=
  if hs.failed = true then (.error (.handshakeFailed "handshake already aborted"),hs)
  else
    match snow.readMessage hs.state msg with
    | (none,state) =>
      (.error (.handshakeFailed "snow read_message failed (MAC failure or state error)"),
        { hs with state := state, failed := true })
    | (some payload,state) =>
      match { hs with state := state }.readMessageBindCert snow suite payload now with
      | .error e => (.error e,{ hs with state := state, failed := true })
      | .ok hs => (.ok (),{ hs with messageIdx := satAdd 255 hs.messageIdx 1 })

def complete (h : Hkdf) (keystore : Keystore) : Except CryptoError Outcome :=
  if hs.failed = true then .error (.handshakeFailed "handshake already aborted")
  else if snow.isHandshakeFinished hs.state = false then .error (.handshakeFailed "handshake not yet complete")
  else
    match hs.peerIdentity with
    | none => .error (.handshakeFailed "peer BindCert was never received or verified")
    | some peerIdentity =>
      match hs.peerBindCert with
      | none => .error (.handshakeFailed "peer BindCert was never received or verified")
      | some peerBindCert =>
        match keystore.isTrusted peerIdentity with
        | .error e => .error e
        | .ok false => .error .untrustedPeer
        | .ok true =>
          match toVector 32 (snow.getHandshakeHash hs.state) with
          | none => .error (.handshakeFailed "handshake hash is not 32 bytes (expected SHA-256)")
          | some handshakeHash =>
            if snow.intoTransportMode hs.state = false then .error (.handshakeFailed "snow into_transport_mode failed")
            else .ok {
              transport := ⟨h.extract handshakeHash.toList⟩
              role := hs.role
              handshakeHash := handshakeHash
              peerIdentity := peerIdentity
              peerBindCert := peerBindCert
              pattern := hs.pattern }

def isFinished : Bool := !hs.failed && snow.isHandshakeFinished hs.state

end Drive

end NoiseHandshake

end Streamhaul
