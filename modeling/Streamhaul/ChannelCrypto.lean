import Streamhaul.ChannelFrame
import Streamhaul.Machine
import Streamhaul.Ratchet
import Streamhaul.ReplayWindow

/-! The channel layer of one session: twelve ratcheted slots per epoch, sealing,
opening with a lazily committed next epoch, rekeying and the kill switch. Every call
returns its response with the state it leaves, also when it fails. -/
namespace Streamhaul

def ratchetInterval : Nat := 16384
def seqHardLimit : Nat := 2 ^ 63
def genHardLimit : Nat := u32Max - 1
def chanLabel : Bytes := ascii "shp chan v1"

/-- The key-derivation root of a finished handshake. Its transport cipher is not used here. -/
structure NoiseSession where
  prk : Key
  deriving DecidableEq

namespace NoiseSession

def zeroizePrk (_ : NoiseSession) : NoiseSession := ⟨Vector.replicate 32 0⟩

def exportInfo (label context : Bytes) : Bytes :=
  toBeBytes 4 label.length ++ label ++ toBeBytes 4 context.length ++ context

def exportKeyingMaterial (h : Hkdf) (session : NoiseSession) (label context : Bytes) (length : Nat) :
    Except CryptoError (Vector UInt8 length) :=
  match Hkdf.fromPrk session.prk.toList with
  | none => .error (.handshakeFailed "invalid PRK for HKDF export")
  | some prk =>
    if u32Max < label.length then .error (.handshakeFailed "label exceeds u32 length limit")
    else if u32Max < context.length then .error (.handshakeFailed "context exceeds u32 length limit")
    else
      match h.expand prk (exportInfo label context) length with
      | none => .error (.handshakeFailed "HKDF expand failed for keying material export")
      | some out => .ok out

end NoiseSession

structure ChannelState where
  ratchet : RatchetChain
  replay : ReplayWindow
  nextSeq : Nat
  framesSealed : Nat
  currentGen : Nat
  deriving DecidableEq

namespace ChannelState

def new (base : Key) : ChannelState := ⟨RatchetChain.fromBaseKey base,ReplayWindow.new,0,0,0⟩

/-- The ratchet advance at the start of a seal, taken when a whole interval was sealed. -/
def ratchetIfDue (h : Hkdf) (st : ChannelState) : Except CryptoError Unit × ChannelState :=
  if st.framesSealed > 0 ∧ st.framesSealed % ratchetInterval = 0 then
    if u32Max < st.currentGen + 1 then (.error .nonceExhausted,st)
    else
      let nextGen := st.currentGen + 1
      if genHardLimit ≤ nextGen then (.error .nonceExhausted,st)
      else
        match st.ratchet.getOrAdvanceTo h nextGen with
        | (.error e,ratchet) => (.error e,{ st with ratchet := ratchet })
        | (.ok _,ratchet) => (.ok (),{ st with ratchet := ratchet, currentGen := nextGen })
  else (.ok (),st)

/-- Encryption under the current generation. The counters move only on success. -/
def encryptFrame (h : Hkdf) (aead : Aead) (st : ChannelState) (channel : ChannelId)
    (direction : Direction) (epoch : Nat) (plaintext : Bytes) :
    Except CryptoError Bytes × ChannelState :=
  let header : ChannelFrameHeader := ⟨channel,direction,epoch,st.currentGen,st.nextSeq⟩
  match st.ratchet.getOrAdvanceTo h st.currentGen with
  | (.error _,ratchet) => (.error .aeadFailure,{ st with ratchet := ratchet })
  | (.ok key,ratchet) =>
    match aead.encrypt key (buildNonce st.currentGen st.nextSeq) header.aad plaintext with
    | none => (.error .aeadFailure,{ st with ratchet := ratchet })
    | some ciphertext => (.ok (header.encode ++ ciphertext),{ st with
        ratchet := ratchet
        nextSeq := satAdd u64Max st.nextSeq 1
        framesSealed := satAdd u64Max st.framesSealed 1 })

def sealFrame (h : Hkdf) (aead : Aead) (st : ChannelState) (channel : ChannelId)
    (direction : Direction) (epoch : Nat) (plaintext : Bytes) :
    Except CryptoError Bytes × ChannelState :=
  if seqHardLimit ≤ st.nextSeq then (.error .nonceExhausted,st)
  else
    match st.ratchetIfDue h with
    | (.error e,st) => (.error e,st)
    | (.ok _,st) => st.encryptFrame h aead channel direction epoch plaintext

/-- The two-phase open of one slot: nothing is written before the tag verifies. -/
def openFrame (h : Hkdf) (aead : Aead) (st : ChannelState) (header : ChannelFrameHeader)
    (frame : Bytes) : Except CryptoError Bytes × ChannelState :=
  match st.replay.check header.seq with
  | .error e => (.error e,st)
  | .ok _ =>
    match st.ratchet.deriveKeyTransient h header.generation with
    | .error _ => (.error .aeadFailure,st)
    | .ok key =>
      match slice? frame channelHeaderLen frame.length with
      | none => (.error (.malformedChannelFrame "frame too short for ciphertext"),st)
      | some ciphertext =>
        match aead.decrypt key (buildNonce header.generation header.seq) header.aad ciphertext with
        | none => (.error .aeadFailure,st)
        | some plaintext =>
          match st.ratchet.commitAdvanceTo h header.generation with
          | (.error _,ratchet) => (.error .aeadFailure,{ st with ratchet := ratchet })
          | (.ok _,ratchet) => (.ok plaintext,{ st with
              ratchet := ratchet
              replay := st.replay.accept header.seq })

def zeroize (st : ChannelState) : ChannelState :=
  { st with ratchet := { st.ratchet with liveKeys := AssocMap.empty } }

end ChannelState

/-- `states[channel * 2 + direction]`, twelve slots once derived. -/
structure EpochKeys where
  epoch : Nat
  states : List ChannelState
  startedAtSecs : Int
  deriving DecidableEq

namespace EpochKeys

def slot (channel : ChannelId) (dir : Direction) : Nat := channel.toU8.toNat * 2 + dir.idx

def get? (e : EpochKeys) (channel : ChannelId) (dir : Direction) : Option ChannelState :=
  e.states[slot channel dir]?

def set (e : EpochKeys) (channel : ChannelId) (dir : Direction) (st : ChannelState) : EpochKeys :=
  { e with states := e.states.set (slot channel dir) st }

/-- `channel_u8 || dir_u8 || epoch_u64_be`. -/
def slotContext (chIdx dirIdx epoch : Nat) : Bytes :=
  [UInt8.ofNat chIdx,UInt8.ofNat dirIdx] ++ toBeBytes 8 epoch

/-- The nested loops of the derivation, in order. -/
def slotIndices : List (Nat × Nat) :=
  (List.range 6).flatMap (fun chIdx => (List.range 2).map (fun dirIdx => (chIdx,dirIdx)))

def deriveStates (h : Hkdf) (session : NoiseSession) (epoch : Nat) :
    List (Nat × Nat) → Except CryptoError (List ChannelState)
  | [] => .ok []
  | (chIdx,dirIdx) :: rest =>
    match session.exportKeyingMaterial h chanLabel (slotContext chIdx dirIdx epoch) 32 with
    | .error e => .error e
    | .ok key =>
      match deriveStates h session epoch rest with
      | .error e => .error e
      | .ok states => .ok (ChannelState.new key :: states)

def deriveEpochKeys (h : Hkdf) (session : NoiseSession) (epoch : Nat) (now : Int) :
    Except CryptoError EpochKeys :=
  match deriveStates h session epoch slotIndices with
  | .error e => .error e
  | .ok states => .ok ⟨epoch,states,now⟩

def openWithEpoch (h : Hkdf) (aead : Aead) (e : EpochKeys) (recvDir : Direction)
    (header : ChannelFrameHeader) (frame : Bytes) : Except CryptoError Bytes × EpochKeys :=
  match e.get? header.channel recvDir with
  | none => (.error .aeadFailure,e)
  | some st =>
    match st.openFrame h aead header frame with
    | (r,st) => (r,e.set header.channel recvDir st)

def zeroizeEpochKeys (e : EpochKeys) : EpochKeys := { e with states := e.states.map ChannelState.zeroize }

end EpochKeys

inductive HandshakeRole where
  | initiator | responder
  deriving DecidableEq, Repr

/-- The part of the handshake result that the channel layer consumes. -/
structure HandshakeOutcome where
  transport : NoiseSession
  role : HandshakeRole
  deriving DecidableEq

structure SessionKeys where
  session : NoiseSession
  role : HandshakeRole
  current : EpochKeys
  prior : Option EpochKeys
  msgsThisEpoch : Nat
  deriving DecidableEq

namespace SessionKeys

def fromOutcome (h : Hkdf) (outcome : HandshakeOutcome) (now : Int) : Except CryptoError SessionKeys :=
  match EpochKeys.deriveEpochKeys h outcome.transport 0 now with
  | .error e => .error e
  | .ok current => .ok ⟨outcome.transport,outcome.role,current,none,0⟩

def sendDirection (k : SessionKeys) : Direction :=
  match k.role with
  | .initiator => .i2r
  | .responder => .r2i

def sealFrame (h : Hkdf) (aead : Aead) (k : SessionKeys) (channel : ChannelId) (plaintext : Bytes) :
    Except CryptoError Bytes × SessionKeys :=
  match k.current.get? channel k.sendDirection with
  | none => (.error .aeadFailure,k)
  | some st =>
    match st.sealFrame h aead channel k.sendDirection k.current.epoch plaintext with
    | (.error e,st) => (.error e,{ k with current := k.current.set channel k.sendDirection st })
    | (.ok frame,st) => (.ok frame,{ k with
        current := k.current.set channel k.sendDirection st
        msgsThisEpoch := satAdd u64Max k.msgsThisEpoch 1 })

/-- The epoch selection of an open, for a header that passed the structural checks. -/
def openHeader (h : Hkdf) (aead : Aead) (k : SessionKeys) (now : Int) (header : ChannelFrameHeader)
    (frame : Bytes) : Except CryptoError Bytes × SessionKeys :=
  if satAdd u64Max k.current.epoch 1 < header.epoch then (.error .epochTooFarAhead,k)
  else if header.epoch = satAdd u64Max k.current.epoch 1 then
    match EpochKeys.deriveEpochKeys h k.session header.epoch now with
    | .error e => (.error e,k)
    | .ok candidate =>
      match candidate.openWithEpoch h aead header.direction header frame with
      | (.error e,_) => (.error e,k)
      | (.ok plaintext,candidate) => (.ok plaintext,{ k with
          current := candidate
          prior := some k.current
          msgsThisEpoch := 0 })
  else if header.epoch < k.current.epoch ∧ header.epoch = k.current.epoch - 1 then
    match k.prior with
    | none => (.error .aeadFailure,k)
    | some prior =>
      match prior.openWithEpoch h aead header.direction header frame with
      | (r,prior) => (r,{ k with prior := some prior })
  else if header.epoch < k.current.epoch then (.error .aeadFailure,k)
  else
    match k.current.openWithEpoch h aead header.direction header frame with
    | (r,current) => (r,{ k with current := current })

def openFrame (h : Hkdf) (aead : Aead) (k : SessionKeys) (now : Int) (channel : ChannelId)
    (frame : Bytes) : Except CryptoError Bytes × SessionKeys :=
  if frame.length < channelHeaderLen + 16 then (.error (.malformedChannelFrame "frame too short"),k)
  else
    match slice? frame 0 channelHeaderLen with
    | none => (.error (.malformedChannelFrame "frame too short for header"),k)
    | some headerBytes =>
      match ChannelFrameHeader.parse headerBytes with
      | .error e => (.error e,k)
      | .ok header =>
        if header.channel ≠ channel then (.error (.malformedChannelFrame "channel id mismatch"),k)
        else if header.direction = k.sendDirection then
          (.error (.malformedChannelFrame "reflected direction"),k)
        else k.openHeader h aead now header frame

def rekey (h : Hkdf) (k : SessionKeys) (now : Int) : Except CryptoError Unit × SessionKeys :=
  match EpochKeys.deriveEpochKeys h k.session (satAdd u64Max k.current.epoch 1) now with
  | .error e => (.error e,k)
  | .ok newKeys => (.ok (),{ k with
      current := newKeys
      prior := some k.current
      msgsThisEpoch := 0 })

def closeGracePeriod (k : SessionKeys) : SessionKeys := { k with prior := none }

def zeroizeAll (k : SessionKeys) : SessionKeys :=
  { k with
    current := k.current.zeroizeEpochKeys
    prior := none
    session := k.session.zeroizePrk }

end SessionKeys

/-- The public calls on one session. The clock is read anew by each call that uses it. -/
inductive Call where
  | sealFrame (channel : ChannelId) (plaintext : Bytes)
  | openFrame (now : Int) (channel : ChannelId) (frame : Bytes)
  | rekey (now : Int)
  | closeGracePeriod
  | zeroizeAll
  deriving DecidableEq

inductive Response where
  | sealed (r : Except CryptoError Bytes)
  | opened (r : Except CryptoError Bytes)
  | rekeyed (r : Except CryptoError Unit)
  | done

namespace SessionKeys

def step (h : Hkdf) (aead : Aead) (k : SessionKeys) : Call → Response × SessionKeys
  | .sealFrame channel plaintext =>
    match k.sealFrame h aead channel plaintext with
    | (r,k) => (.sealed r,k)
  | .openFrame now channel frame =>
    match k.openFrame h aead now channel frame with
    | (r,k) => (.opened r,k)
  | .rekey now =>
    match k.rekey h now with
    | (r,k) => (.rekeyed r,k)
  | .closeGracePeriod => (.done,k.closeGracePeriod)
  | .zeroizeAll => (.done,k.zeroizeAll)

end SessionKeys

abbrev CallEvent := Machine.Event SessionKeys Call Response

end Streamhaul
