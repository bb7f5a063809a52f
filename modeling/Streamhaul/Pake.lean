import Streamhaul.Machine
import Streamhaul.Text
import Streamhaul.Ugc

/-! The pairing exchange over a shared code: SPAKE2 for the key, then one confirmation MAC in each
direction that covers the Noise session and both identities. SPAKE2, HKDF and SHA-256 are
parameters. -/
namespace Streamhaul

inductive PakeRole where
  | initiator
  | responder
  deriving DecidableEq

structure PairingCode where
  value : Text
  notAfter : Int

/-- A code that had not expired when it was checked. -/
structure ValidPairingCode where
  code : PairingCode

/-- One side of SPAKE2; `ρ` is the randomness drawn at the start. -/
structure Spake2 (σ ρ : Type) where
  startA : (password idA idB : Bytes) → ρ → σ × Bytes
  startB : (password idA idB : Bytes) → ρ → σ × Bytes
  finish : σ → (peerMsg : Bytes) → Option Bytes

def hexDigit (n : Nat) : UInt8 := UInt8.ofNat (if n < 10 then 48 + n else 87 + n)

/-- The lowercase hexadecimal digest of a public key, as ASCII bytes. -/
def fingerprint (suite : IdentitySuite) (publicKey : Key) : Bytes :=
  (suite.sha256 publicKey.toList).toList.flatMap fun b => [hexDigit (b.toNat / 16),hexDigit (b.toNat % 16)]

def pakeConfirmInitiatorInfo : Bytes := ascii "SHP-PAKE-v1-confirm-initiator" ++ [0]
def pakeConfirmResponderInfo : Bytes := ascii "SHP-PAKE-v1-confirm-responder" ++ [0]

structure PakeConfirmed where
  authorizesPin : Key
  deriving DecidableEq

structure PakeExchange (σ : Type) where
  spake2State : Option σ
  outbound : Bytes
  peerExpectedMac : Option Key
  role : PakeRole
  handshakeHash : Key
  localId : Key
  peerId : Key
  localConfirmation : Option Key

namespace PakeExchange

variable {σ ρ : Type} (h : Hkdf) (spake : Spake2 σ ρ) (suite : IdentitySuite)

def startWithRng (rng : ρ) (role : PakeRole) (code : ValidPairingCode) (localId peerId handshakeHash : Key) :
    Except CryptoError (PakeExchange σ) :=
  let password := code.code.value.asBytes
  let (spake2State,outbound) := match role with
    | .initiator => spake.startA password (fingerprint suite localId) (fingerprint suite peerId) rng
    | .responder => spake.startB password (fingerprint suite peerId) (fingerprint suite localId) rng
  .ok {
    spake2State := some spake2State
    outbound := outbound
    peerExpectedMac := none
    role := role
    handshakeHash := handshakeHash
    localId := localId
    peerId := peerId
    localConfirmation := none }

section Exchange

variable (x : PakeExchange σ)

def localConfirmInfoLabel : Bytes :=
  match x.role with
  | .initiator => pakeConfirmInitiatorInfo
  | .responder => pakeConfirmResponderInfo

def peerConfirmInfoLabel : Bytes :=
  match x.role with
  | .initiator => pakeConfirmResponderInfo
  | .responder => pakeConfirmInitiatorInfo

def idA : Key :=
  match x.role with
  | .initiator => x.localId
  | .responder => x.peerId

def idB : Key :=
  match x.role with
  | .initiator => x.peerId
  | .responder => x.localId

/-- Label, handshake hash and both fingerprints, without separators. -/
def confirmationInfo (roleLabel : Bytes) : Bytes :=
  roleLabel ++ x.handshakeHash.toList ++ fingerprint suite x.idA ++ fingerprint suite x.idB

def deriveConfirmationKey (spake2Key roleLabel : Bytes) : Except CryptoError Key :=
  match h.expand (h.extract spake2Key).toList (x.confirmationInfo suite roleLabel) 32 with
  | none => .error (.malformedPakeMessage "HKDF expand failed for confirmation key")
  | some key => .ok key

def finalMac (confirmKey : Key) : Except CryptoError Key :=
  match h.expand (h.extract confirmKey.toList).toList (ascii "mac" ++ [0]) 32 with
  | none => .error (.malformedPakeMessage "HKDF expand failed for confirmation MAC")
  | some mac => .ok mac

def confirmations (rawKey : Bytes) : Except CryptoError (Key × Key) :=
  match x.deriveConfirmationKey h suite rawKey x.localConfirmInfoLabel with
  | .error e => .error e
  | .ok localConfirmKey =>
    match x.deriveConfirmationKey h suite rawKey x.peerConfirmInfoLabel with
    | .error e => .error e
    | .ok peerConfirmKey =>
      match finalMac h localConfirmKey with
      | .error e => .error e
      | .ok localConfirmation =>
        match finalMac h peerConfirmKey with
        | .error e => .error e
        | .ok peerExpectedMac => .ok (localConfirmation,peerExpectedMac)

def readPeerMsg (peerMsg : Bytes) : Except CryptoError Unit × PakeExchange σ :=
  if peerMsg.length ≠ 33 then (.error (.malformedPakeMessage "SPAKE2 message has unexpected length"),x)
  else
    match x.spake2State with
    | none => (.error (.malformedPakeMessage "read_peer_msg already called"),x)
    | some state =>
      let x := { x with spake2State := none }
      match spake.finish state peerMsg with
      | none =>
        (.error (.malformedPakeMessage "SPAKE2 key derivation failed (wrong code or malformed message)"),x)
      | some rawKey =>
        match x.confirmations h suite rawKey with
        | .error e => (.error e,x)
        | .ok (localConfirmation,peerExpectedMac) =>
          (.ok (),{ x with localConfirmation := some localConfirmation, peerExpectedMac := some peerExpectedMac })

def localConfirmationMac : Except CryptoError Key :=
  match x.localConfirmation with
  | none => .error (.malformedPakeMessage "must call read_peer_msg before local_confirmation_mac")
  | some mac => .ok mac

def finish (peerConfirmation : Bytes) : Except CryptoError PakeConfirmed :=
  if peerConfirmation.length ≠ 32 then
    .error (.malformedPakeMessage "peer confirmation MAC must be exactly 32 bytes")
  else
    match x.peerExpectedMac with
    | none => .error (.malformedPakeMessage "must call read_peer_msg before finish")
    | some expected =>
      if expected.toList ≠ peerConfirmation then .error .pakeConfirmationFailed else .ok ⟨x.peerId⟩

end Exchange

end PakeExchange

end Streamhaul
