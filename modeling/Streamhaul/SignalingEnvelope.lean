import Streamhaul.Text

/-! The signaling envelope: a fixed header of kind, session and two fingerprints in front
of an opaque payload, and the errors of the signaling layer with their texts. -/
namespace Streamhaul

abbrev SessionId := Vector UInt8 16

inductive MessageKind where
  | hello
  | offer
  | answer
  | candidate
  | endOfCandidates
  | bye
  | error
  | challenge
  | noise
  deriving DecidableEq

/-- The kinds a client may have relayed to its peer. -/
def MessageKind.relayed : MessageKind → Bool
  | .offer | .answer | .candidate | .endOfCandidates | .bye | .noise => true
  | .hello | .error | .challenge => false

structure SignalingEnvelope where
  kind : MessageKind
  sessionId : SessionId
  fromFp : Text
  toFp : Text
  payload : Bytes
  deriving DecidableEq

inductive SignalingError where
  | envelopeTooShort (actual : Nat)
  | unknownMessageKind (byte : UInt8)
  | payloadTooLarge (len : Nat)
  | truncatedPayload (declared available : Nat)
  | invalidFingerprint
  | sessionNotFound (sessionId : SessionId)
  | peerNotFound (fp : Text)
  | fingerprintSpoofAttempt (registered attempted : Text)
  | sessionTableFull (max : Nat)
  | sessionFull (max : Nat)
  | unexpectedMessageType
  | alreadyRegistered
  | authenticationFailed
  deriving DecidableEq

def maxPayloadLen : Nat := 64 * 1024
def envelopeHeaderLen : Nat := 149
def fromFpOffset : Nat := 17
def toFpOffset : Nat := 81
def payloadLenOffset : Nat := 145
def fpLen : Nat := 64

def hexByte (b : UInt8) : Text := [Nat.digitChar (b.toNat / 16),Nat.digitChar (b.toNat % 16)]

def decimal (n : Nat) : Text := Nat.toDigits 10 n

/-- Only the first four bytes of a session id are shown. -/
def debugSessionId (id : SessionId) : Text :=
  "SessionId(".toList ++ (id.toList.take 4).flatMap hexByte ++ "…)".toList

def SignalingError.display : SignalingError → Text
  | .envelopeTooShort actual =>
    "envelope too short: need at least ".toList ++ decimal envelopeHeaderLen ++ " bytes, got ".toList ++ decimal actual
  | .unknownMessageKind byte => "unknown message kind byte: 0x".toList ++ hexByte byte
  | .payloadTooLarge len =>
    "payload too large: ".toList ++ decimal len ++ " bytes (max ".toList ++ decimal maxPayloadLen ++ ")".toList
  | .truncatedPayload declared available =>
    "truncated payload: declared ".toList ++ decimal declared ++ " bytes but only ".toList ++ decimal available ++
      " bytes remain".toList
  | .invalidFingerprint => "invalid fingerprint: must be 64 lowercase hex characters [0-9a-f]".toList
  | .sessionNotFound sessionId => "session not found: ".toList ++ debugSessionId sessionId
  | .peerNotFound fp => "peer not found in session: ".toList ++ fp
  | .fingerprintSpoofAttempt _ _ => "fingerprint mismatch".toList
  | .sessionTableFull max => "session table full (max ".toList ++ decimal max ++ " sessions)".toList
  | .sessionFull max => "session full (max ".toList ++ decimal max ++ " peers)".toList
  | .unexpectedMessageType => "unexpected WebSocket message type".toList
  | .alreadyRegistered => "connection already registered".toList
  | .authenticationFailed => "authentication failed".toList

namespace MessageKind

def toU8 : MessageKind → UInt8
  | .hello => 0
  | .offer => 1
  | .answer => 2
  | .candidate => 3
  | .endOfCandidates => 4
  | .bye => 5
  | .error => 6
  | .challenge => 7
  | .noise => 8

def fromU8 (byte : UInt8) : Except SignalingError MessageKind :=
  if byte = 0 then .ok .hello
  else if byte = 1 then .ok .offer
  else if byte = 2 then .ok .answer
  else if byte = 3 then .ok .candidate
  else if byte = 4 then .ok .endOfCandidates
  else if byte = 5 then .ok .bye
  else if byte = 6 then .ok .error
  else if byte = 7 then .ok .challenge
  else if byte = 8 then .ok .noise
  else .error (.unknownMessageKind byte)

theorem fromU8_toU8 (kind : MessageKind) : fromU8 kind.toU8 = .ok kind := by
  cases kind <;> rfl

theorem toU8_of_fromU8 {byte : UInt8} {kind : MessageKind} (known : fromU8 byte = .ok kind) : kind.toU8 = byte := by
  unfold fromU8 at known
  grind [toU8]

end MessageKind

def lowerHex (b : UInt8) : Bool := (0x30 ≤ b && b ≤ 0x39) || (0x61 ≤ b && b ≤ 0x66)

def validateFp (fp : Text) : Except SignalingError Unit :=
  if fp.len ≠ fpLen ∨ ¬fp.asBytes.all lowerHex then .error .invalidFingerprint else .ok ()

namespace SignalingEnvelope

def encode (env : SignalingEnvelope) : Except SignalingError Bytes :=
  if env.payload.length > maxPayloadLen then .error (.payloadTooLarge env.payload.length)
  else do
    validateFp env.fromFp
    validateFp env.toFp
    return [env.kind.toU8] ++ env.sessionId.toList ++ env.fromFp.asBytes ++ env.toFp.asBytes ++
      toBeBytes 4 env.payload.length ++ env.payload

def decodeFp (buf : Bytes) (offset : Nat) : Except SignalingError Text :=
  match Text.fromUtf8 ((buf.drop offset).take fpLen) with
  | none => .error .invalidFingerprint
  | some fp => do
    validateFp fp
    return fp

def decode (buf : Bytes) : Except SignalingError SignalingEnvelope :=
  if buf.length < envelopeHeaderLen then .error (.envelopeTooShort buf.length)
  else do
    let kind ← MessageKind.fromU8 (buf.getD 0 0)
    let sessionId := vectorAt 16 buf 1
    let fromFp ← decodeFp buf fromFpOffset
    let toFp ← decodeFp buf toFpOffset
    let payloadLen := fromBeBytes ((buf.drop payloadLenOffset).take 4)
    if payloadLen > maxPayloadLen then throw (.payloadTooLarge payloadLen)
    let available := buf.length - envelopeHeaderLen
    if available < payloadLen then throw (.truncatedPayload payloadLen available)
    return ⟨kind,sessionId,fromFp,toFp,(buf.drop envelopeHeaderLen).take payloadLen⟩

/-- What both directions of the codec agree on. -/
structure Valid (env : SignalingEnvelope) : Prop where
  payload : env.payload.length ≤ maxPayloadLen
  fromFp : validateFp env.fromFp = .ok ()
  toFp : validateFp env.toFp = .ok ()

def header (env : SignalingEnvelope) : Bytes :=
  [env.kind.toU8] ++ env.sessionId.toList ++ env.fromFp.asBytes ++ env.toFp.asBytes ++
    toBeBytes 4 env.payload.length

variable {env : SignalingEnvelope} {buf : Bytes} {fp : Text}

theorem encode_eq (valid : env.Valid) : env.encode = .ok (env.header ++ env.payload) := by
  have fits : ¬env.payload.length > maxPayloadLen := by have := valid.payload; omega
  simp only [encode,if_neg fits,valid.fromFp,valid.toFp]
  rfl

theorem encode_ok_iff {bytes : Bytes} :
    env.encode = .ok bytes ↔ env.Valid ∧ bytes = env.header ++ env.payload := by
  constructor
  · intro encoded
    unfold encode at encoded
    split at encoded
    · cases encoded
    · next fits =>
      cases first : validateFp env.fromFp with
      | error e => rw [first] at encoded; cases encoded
      | ok =>
        cases second : validateFp env.toFp with
        | error e => rw [first,second] at encoded; cases encoded
        | ok =>
          rw [first,second] at encoded
          cases encoded
          exact ⟨⟨by omega,first,second⟩,rfl⟩
  · rintro ⟨valid,rfl⟩
    exact encode_eq valid

theorem length_of_validateFp (valid : validateFp fp = .ok ()) : fp.asBytes.length = fpLen := by
  unfold validateFp at valid
  split at valid
  · cases valid
  · next passed =>
    rw [Text.length_asBytes]
    simpa using (not_or.mp passed).1

theorem length_header (valid : env.Valid) : env.header.length = envelopeHeaderLen := by
  simp only [header,List.length_append,length_of_validateFp valid.fromFp,length_of_validateFp valid.toFp,
    length_toBeBytes,List.length_singleton,Vector.length_toList]
  rfl

theorem decodeFp_field (valid : validateFp fp = .ok ()) (front rest buf : Bytes) {offset : Nat}
    (here : buf = front ++ (fp.asBytes ++ rest)) (start : front.length = offset) :
    decodeFp buf offset = .ok fp := by
  have field : (buf.drop offset).take fpLen = fp.asBytes := by
    rw [here,← start,← length_of_validateFp valid]
    exact take_drop_append _ _ _
  simp only [decodeFp,field,Text.fromUtf8_asBytes,valid]
  rfl

/-- A string with the fields of an envelope where a decoder reads them. -/
structure Framed (env : SignalingEnvelope) (buf : Bytes) : Prop where
  long : envelopeHeaderLen + env.payload.length ≤ buf.length
  kind : buf.getD 0 0 = env.kind.toU8
  session : vectorAt 16 buf 1 = env.sessionId
  sender : decodeFp buf fromFpOffset = .ok env.fromFp
  recipient : decodeFp buf toFpOffset = .ok env.toFp
  length : fromBeBytes ((buf.drop payloadLenOffset).take 4) = env.payload.length
  body : (buf.drop envelopeHeaderLen).take env.payload.length = env.payload

theorem framed (valid : env.Valid) (tail : Bytes) :
    Framed env (env.header ++ (env.payload ++ tail)) where
  long := by
    rw [List.length_append,List.length_append,length_header valid]
    omega
  kind := rfl
  session := by
    simp only [header,List.append_assoc]
    exact vectorAt_append [env.kind.toU8] _ env.sessionId
  sender :=
    decodeFp_field valid.fromFp ([env.kind.toU8] ++ env.sessionId.toList) _ _
      (by simp only [header,List.append_assoc]; rfl) (by simp [fromFpOffset])
  recipient :=
    decodeFp_field valid.toFp ([env.kind.toU8] ++ env.sessionId.toList ++ env.fromFp.asBytes) _ _
      (by simp only [header,List.append_assoc]; rfl) (by simp [length_of_validateFp valid.fromFp,toFpOffset,fpLen])
  length := by
    have front : ([env.kind.toU8] ++ env.sessionId.toList ++ env.fromFp.asBytes ++ env.toFp.asBytes).length =
        payloadLenOffset := by
      simp [length_of_validateFp valid.fromFp,length_of_validateFp valid.toFp,payloadLenOffset,fpLen]
    have field := take_drop_append
      ([env.kind.toU8] ++ env.sessionId.toList ++ env.fromFp.asBytes ++ env.toFp.asBytes)
      (toBeBytes 4 env.payload.length) (env.payload ++ tail)
    rw [front,length_toBeBytes] at field
    rw [header,List.append_assoc _ (toBeBytes 4 _),field]
    apply fromBeBytes_of_lt
    have := valid.payload
    unfold maxPayloadLen at this
    omega
  body := by
    rw [← length_header valid]
    exact take_drop_append _ _ _

theorem decode_encode_append (valid : env.Valid) (tail : Bytes) :
    decode (env.header ++ (env.payload ++ tail)) = .ok env := by
  have at' := framed valid tail
  have total := at'.long
  have long : ¬(env.header ++ (env.payload ++ tail)).length < envelopeHeaderLen := by omega
  have available : ¬(env.header ++ (env.payload ++ tail)).length - envelopeHeaderLen < env.payload.length := by omega
  simp only [decode,long,if_false,at'.kind,MessageKind.fromU8_toU8,at'.session,at'.sender,at'.recipient,at'.length,at'.body,
    available,bind,Except.bind,gt_iff_lt,Nat.not_lt.mpr valid.payload]
  rfl

theorem decodeFp_ok {offset : Nat} (decoded : decodeFp buf offset = .ok fp) :
    validateFp fp = .ok () ∧ (buf.drop offset).take fpLen = fp.asBytes := by
  unfold decodeFp at decoded
  cases text : Text.fromUtf8 ((buf.drop offset).take fpLen) with
  | none => simp [text] at decoded
  | some fp' =>
    cases valid : validateFp fp' with
    | error e => simp [text,valid,bind,Except.bind] at decoded
    | ok =>
      simp only [text,valid] at decoded
      cases decoded
      exact ⟨valid,(Text.asBytes_of_fromUtf8 text).symm⟩

theorem split_header (buf : Bytes) (long : envelopeHeaderLen ≤ buf.length) :
    buf = [buf.getD 0 0] ++ (vectorAt 16 buf 1).toList ++ (buf.drop fromFpOffset).take fpLen ++
      (buf.drop toFpOffset).take fpLen ++ (buf.drop payloadLenOffset).take 4 ++ buf.drop envelopeHeaderLen := by
  unfold envelopeHeaderLen at long
  have kind : buf.take 1 = [buf.getD 0 0] := by
    cases buf with
    | nil => simp at long
    | cons b rest => rfl
  have payload : buf.drop 145 = (buf.drop 145).take 4 ++ buf.drop 149 := drop_split buf 145 4
  have recipient : buf.drop 81 = (buf.drop 81).take 64 ++ buf.drop 145 := drop_split buf 81 64
  have sender : buf.drop 17 = (buf.drop 17).take 64 ++ buf.drop 81 := drop_split buf 17 64
  have session : buf.drop 1 = (vectorAt 16 buf 1).toList ++ buf.drop 17 := by
    rw [toList_vectorAt (by omega)]
    exact drop_split buf 1 16
  have whole := (List.take_append_drop 1 buf).symm
  rw [kind,session,sender,recipient,payload] at whole
  simp only [List.append_assoc]
  exact whole

theorem decoded_split {kind : MessageKind} {fromFp toFp : Text}
    (long : envelopeHeaderLen ≤ buf.length) (first : MessageKind.fromU8 (buf.getD 0 0) = .ok kind)
    (sender : decodeFp buf fromFpOffset = .ok fromFp) (recipient : decodeFp buf toFpOffset = .ok toFp)
    (fits : fromBeBytes ((buf.drop payloadLenOffset).take 4) ≤ maxPayloadLen)
    (available : fromBeBytes ((buf.drop payloadLenOffset).take 4) ≤ buf.length - envelopeHeaderLen) :
    let env : SignalingEnvelope := ⟨kind,vectorAt 16 buf 1,fromFp,toFp,
      (buf.drop envelopeHeaderLen).take (fromBeBytes ((buf.drop payloadLenOffset).take 4))⟩
    env.Valid ∧ ∃ tail, buf = env.header ++ (env.payload ++ tail) := by
  intro env
  obtain ⟨validFrom,fromBytes⟩ := decodeFp_ok sender
  obtain ⟨validTo,toBytes⟩ := decodeFp_ok recipient
  have size : env.payload.length = fromBeBytes ((buf.drop payloadLenOffset).take 4) := by
    simp only [env,List.length_take,List.length_drop]
    omega
  have field : ((buf.drop payloadLenOffset).take 4).length = 4 := by
    simp only [List.length_take,List.length_drop,payloadLenOffset]
    unfold envelopeHeaderLen at long
    omega
  have digits := toBeBytes_fromBeBytes ((buf.drop payloadLenOffset).take 4)
  rw [field,← size] at digits
  refine ⟨⟨size ▸ fits,validFrom,validTo⟩,buf.drop (envelopeHeaderLen + env.payload.length),?_⟩
  have tail : buf.drop envelopeHeaderLen = env.payload ++ buf.drop (envelopeHeaderLen + env.payload.length) := by
    rw [size]
    exact drop_split buf envelopeHeaderLen _
  have whole := split_header buf long
  rw [← MessageKind.toU8_of_fromU8 first,fromBytes,toBytes,← digits,tail] at whole
  exact whole

theorem decode_ok_iff :
    decode buf = .ok env ↔ env.Valid ∧ ∃ tail, buf = env.header ++ (env.payload ++ tail) := by
  constructor
  · intro decoded
    unfold decode at decoded
    split at decoded
    · cases decoded
    · next long =>
      cases kind : MessageKind.fromU8 (buf.getD 0 0) with
      | error e => rw [kind] at decoded; cases decoded
      | ok kind' =>
        cases sender : decodeFp buf fromFpOffset with
        | error e => rw [kind,sender] at decoded; cases decoded
        | ok fromFp =>
          cases recipient : decodeFp buf toFpOffset with
          | error e => rw [kind,sender,recipient] at decoded; cases decoded
          | ok toFp =>
            rw [kind,sender,recipient] at decoded
            dsimp only [bind,Except.bind] at decoded
            split at decoded
            · cases decoded
            · next fits =>
              split at decoded
              · cases decoded
              · next available =>
                cases decoded
                exact decoded_split (by omega) kind sender recipient (by omega) (by omega)
  · rintro ⟨valid,tail,rfl⟩
    exact decode_encode_append valid tail

theorem decode_encode {bytes : Bytes} (encoded : env.encode = .ok bytes) (tail : Bytes) :
    decode (bytes ++ tail) = .ok env := by
  obtain ⟨valid,rfl⟩ := encode_ok_iff.mp encoded
  rw [List.append_assoc]
  exact decode_encode_append valid tail

end SignalingEnvelope

end Streamhaul
