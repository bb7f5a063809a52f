import Streamhaul.NoiseHandshake
import Streamhaul.SignalingEnvelope
import Streamhaul.Stun
import Streamhaul.TransportCaps

/-! Establishing a session: the ends exchange their transport sets over the signaling channel,
choose a transport, pass the DTLS gate and build. The channel, which a relay may control, and the
factory are parameters; calls of the factory are recorded. A WebRTC build always carries the pin of
the verified certificate, but the transport sets are taken from whichever envelope the channel
delivers. -/
namespace Streamhaul

structure IcePathOutcome where
  localAddr : SocketAddr
  remoteAddr : SocketAddr
  isRelay : Bool
  deriving DecidableEq

inductive SessionError where
  | signaling (message : String)
  | protocol (error : ProtocolError)
  | crypto (error : CryptoError)
  | negotiation (error : NegotiationError)
  | transport (message : String)
  | dtlsBindingMissing
  | unexpectedDtlsCommitment
  | envelopeKindMismatch (expected got : String)
  | capsPayloadWrongLength (expected got : Nat)
  | noNominatedPath
  deriving DecidableEq

def MessageKind.debug : MessageKind → String
  | .hello => "Hello"
  | .offer => "Offer"
  | .answer => "Answer"
  | .candidate => "Candidate"
  | .endOfCandidates => "EndOfCandidates"
  | .bye => "Bye"
  | .error => "Error"
  | .challenge => "Challenge"
  | .noise => "Noise"

structure SignalingChannel (S : Type) where
  send : S → SignalingEnvelope → Except SessionError Unit × S
  recv : S → Except SessionError SignalingEnvelope × S

abbrev TransportFactory (T : Type) := TransportKind → IcePathOutcome → Option Key → Except SessionError T

structure Build where
  kind : TransportKind
  path : IcePathOutcome
  webrtcPeerPin : Option Key
  deriving DecidableEq

structure Establishment (T : Type) where
  result : Except SessionError (TransportKind × T)
  builds : List Build

structure SessionEstablisher where
  localCaps : TransportCaps
  localFp : Text
  peerFp : Text
  sessionId : SessionId
  deriving DecidableEq

/-- What an envelope says about the peer's transports. -/
def readPeerCaps (expectedKind : MessageKind) (env : SignalingEnvelope) : Except SessionError TransportCaps :=
  if env.kind ≠ expectedKind then .error (.envelopeKindMismatch expectedKind.debug env.kind.debug)
  else if env.payload.length ≠ transportCapsLen then .error (.capsPayloadWrongLength transportCapsLen env.payload.length)
  else
    match decodeTransportCaps env.payload with
    | .error e => .error (.protocol e)
    | .ok caps => .ok caps

/-- The pin the factory is given: the verified one for WebRTC, none for QUIC. -/
def dtlsGate (outcome : NoiseHandshake.Outcome) : TransportKind → Except SessionError (Option Key)
  | .webrtc =>
    match outcome.peerBindCert.requireWebrtcDtlsPin with
    | .error _ => .error .dtlsBindingMissing
    | .ok pin => .ok (some pin)
  | .quic => if outcome.peerBindCert.dtlsPin.isSome then .error .unexpectedDtlsCommitment else .ok none

namespace SessionEstablisher

def makeCapsEnvelope (e : SessionEstablisher) (kind : MessageKind) (wire : Bytes) : SignalingEnvelope :=
  ⟨kind,e.sessionId,e.localFp,e.peerFp,wire⟩

def capsEnvelope (e : SessionEstablisher) : SignalingEnvelope :=
  e.makeCapsEnvelope .candidate (encodeTransportCaps e.localCaps)

variable {S T : Type} (channel : SignalingChannel S) (factory : TransportFactory T)

def recvPeerCaps (s : S) (expectedKind : MessageKind) : Except SessionError TransportCaps × S :=
  match channel.recv s with
  | (.error e,s) => (.error e,s)
  | (.ok env,s) => (readPeerCaps expectedKind env,s)

def negotiateAndBuild (e : SessionEstablisher) (outcome : NoiseHandshake.Outcome) (path : IcePathOutcome)
    (peerCaps : TransportCaps) : Establishment T :=
  match negotiate e.localCaps peerCaps with
  | .error err => ⟨.error (.negotiation err),[]⟩
  | .ok kind =>
    match dtlsGate outcome kind with
    | .error err => ⟨.error err,[]⟩
    | .ok pin => ⟨(factory kind path pin).map (fun transport => (kind,transport)),[⟨kind,path,pin⟩]⟩

def establishAsInitiator (e : SessionEstablisher) (s : S) (outcome : NoiseHandshake.Outcome) (path : IcePathOutcome) :
    Establishment T :=
  match channel.send s e.capsEnvelope with
  | (.error err,_) => ⟨.error err,[]⟩
  | (.ok (),s) =>
    match recvPeerCaps channel s .candidate with
    | (.error err,_) => ⟨.error err,[]⟩
    | (.ok peerCaps,_) => negotiateAndBuild factory e outcome path peerCaps

def establishAsResponder (e : SessionEstablisher) (s : S) (outcome : NoiseHandshake.Outcome) (path : IcePathOutcome) :
    Establishment T :=
  match recvPeerCaps channel s .candidate with
  | (.error err,_) => ⟨.error err,[]⟩
  | (.ok peerCaps,s) =>
    match channel.send s e.capsEnvelope with
    | (.error err,_) => ⟨.error err,[]⟩
    | (.ok (),_) => negotiateAndBuild factory e outcome path peerCaps

def establish (e : SessionEstablisher) (role : HandshakeRole) (s : S) (outcome : NoiseHandshake.Outcome)
    (path : IcePathOutcome) :
    Establishment T :=
  match role with
  | .initiator => establishAsInitiator channel factory e s outcome path
  | .responder => establishAsResponder channel factory e s outcome path

/-- The envelope the channel delivers to an end that waits for the peer's transports. -/
def delivered (e : SessionEstablisher) (role : HandshakeRole) (s : S) : Option SignalingEnvelope :=
  match role with
  | .initiator =>
    match channel.send s e.capsEnvelope with
    | (.error _,_) => none
    | (.ok (),s) => (channel.recv s).1.toOption
  | .responder => (channel.recv s).1.toOption

/-- The envelope is from the intended peer, for this end and of this session. -/
def Intended (e : SessionEstablisher) (env : SignalingEnvelope) : Prop :=
  env.fromFp = e.peerFp ∧ env.toFp = e.localFp ∧ env.sessionId = e.sessionId

instance (e : SessionEstablisher) (env : SignalingEnvelope) : Decidable (e.Intended env) :=
  inferInstanceAs (Decidable (_ ∧ _))

/-- Whatever else the ends and the channel do, a transport is built on an envelope only when it is intended. -/
def BoundToPeer (e : SessionEstablisher) (env : SignalingEnvelope) : Prop :=
  ∀ {S T : Type} (channel : SignalingChannel S) (factory : TransportFactory T) (role : HandshakeRole) (s : S)
    (outcome : NoiseHandshake.Outcome) (path : IcePathOutcome), delivered channel e role s = some env →
    (establish channel factory e role s outcome path).builds ≠ [] → e.Intended env

/-- A candidate envelope whose two bytes name a transport that this end supports. -/
def NamesCommonTransport (e : SessionEstablisher) (env : SignalingEnvelope) : Prop :=
  env.kind = .candidate ∧ ∃ mask, env.payload = [transportCapsVersion,mask] ∧
    ∃ kind, e.localCaps.has kind = true ∧ (TransportCaps.ofMask mask).has kind = true

/-- What stands behind a call of the factory. -/
structure BuiltFrom (e : SessionEstablisher) (env : SignalingEnvelope) (outcome : NoiseHandshake.Outcome)
    (path : IcePathOutcome)
    (build : Build) : Prop where
  negotiated : ∃ caps, readPeerCaps .candidate env = .ok caps ∧ negotiate e.localCaps caps = .ok build.kind
  gated : dtlsGate outcome build.kind = .ok build.webrtcPeerPin
  path : build.path = path

end SessionEstablisher

theorem readPeerCaps_eq_ok_iff {expectedKind : MessageKind} {env : SignalingEnvelope} {caps : TransportCaps} :
    readPeerCaps expectedKind env = .ok caps ↔
      env.kind = expectedKind ∧ ∃ mask, env.payload = [transportCapsVersion,mask] ∧ caps = .ofMask mask := by
  unfold readPeerCaps
  by_cases kind : env.kind = expectedKind
  · rw [if_neg (not_not.mpr kind)]
    by_cases size : env.payload.length = transportCapsLen
    · rw [if_neg (not_not.mpr size),← decodeTransportCaps_eq_ok_iff size]
      cases decodeTransportCaps env.payload <;> simp [kind]
    · rw [if_pos size]
      refine ⟨(nomatch ·),?_⟩
      rintro ⟨-,mask,payload,-⟩
      exact absurd (by rw [payload]; rfl) size
  · rw [if_pos kind]
    exact ⟨(nomatch ·),fun read => absurd read.1 kind⟩

theorem readPeerCaps_capsEnvelope (e : SessionEstablisher) : readPeerCaps .candidate e.capsEnvelope = .ok e.localCaps := by
  have decoded : decodeTransportCaps e.capsEnvelope.payload = .ok e.localCaps := decodeTransportCaps_encode e.localCaps
  have size : e.capsEnvelope.payload.length = transportCapsLen := length_encodeTransportCaps e.localCaps
  exact readPeerCaps_eq_ok_iff.mpr ⟨rfl,(decodeTransportCaps_eq_ok_iff size).mp decoded⟩

/-- A WebRTC pin is the fingerprint the peer committed, and it is not zero; QUIC goes without a commitment. -/
theorem dtlsGate_spec {outcome : NoiseHandshake.Outcome} {kind : TransportKind} {pin : Option Key}
    (passed : dtlsGate outcome kind = .ok pin) :
    kind = .webrtc ∧ pin = some outcome.peerBindCert.fields.dtlsFprCommit ∧
        outcome.peerBindCert.fields.dtlsFprCommit ≠ Vector.replicate 32 0 ∨
      kind = .quic ∧ pin = none ∧ outcome.peerBindCert.fields.dtlsFprAlg ≠ dtlsFprAlgSha256 := by
  cases kind with
  | webrtc =>
    by_cases alg : outcome.peerBindCert.fields.dtlsFprAlg = dtlsFprAlgSha256
    · by_cases zero : outcome.peerBindCert.fields.dtlsFprCommit = Vector.replicate 32 0
      · simp [dtlsGate,BindCert.requireWebrtcDtlsPin,zero] at passed
      · simp [dtlsGate,BindCert.requireWebrtcDtlsPin,alg,zero] at passed
        exact .inl ⟨rfl,passed.symm,zero⟩
    · simp [dtlsGate,BindCert.requireWebrtcDtlsPin,alg] at passed
  | quic =>
    by_cases alg : outcome.peerBindCert.fields.dtlsFprAlg = dtlsFprAlgSha256
    · simp [dtlsGate,BindCert.dtlsPin,alg] at passed
    · simp [dtlsGate,BindCert.dtlsPin,alg] at passed
      exact .inr ⟨rfl,passed.symm,alg⟩

namespace SessionEstablisher

variable {S T : Type} {channel : SignalingChannel S} {factory : TransportFactory T} {e : SessionEstablisher}
  {role : HandshakeRole} {s : S} {outcome : NoiseHandshake.Outcome} {path : IcePathOutcome} {build : Build}
  {caps : TransportCaps} {env : SignalingEnvelope}

theorem recvPeerCaps_eq_ok {kind : MessageKind} {next : S} (received : recvPeerCaps channel s kind = (.ok caps,next)) :
    ∃ env, (channel.recv s).1.toOption = some env ∧ readPeerCaps kind env = .ok caps := by
  unfold recvPeerCaps at received
  rcases taken : channel.recv s with ⟨err | env,after⟩
  · rw [taken] at received
    cases (Prod.mk.inj received).1
  · rw [taken] at received
    exact ⟨env,rfl,(Prod.mk.inj received).1⟩

theorem mem_negotiateAndBuild (read : readPeerCaps .candidate env = .ok caps)
    (built : build ∈ (negotiateAndBuild factory e outcome path caps).builds) : BuiltFrom e env outcome path build := by
  unfold negotiateAndBuild at built
  cases chosen : negotiate e.localCaps caps with
  | error err =>
    rw [chosen] at built
    cases built
  | ok kind =>
    rw [chosen] at built
    cases passed : dtlsGate outcome kind with
    | error err =>
      simp only [passed] at built
      cases built
    | ok pin =>
      simp only [passed] at built
      rw [List.mem_singleton.mp built]
      exact ⟨⟨caps,read,chosen⟩,passed,rfl⟩

/-- Every build goes back to the envelope the channel delivered, the negotiation and the gate. -/
theorem builtFrom_of_mem (built : build ∈ (establish channel factory e role s outcome path).builds) :
    ∃ env, delivered channel e role s = some env ∧ BuiltFrom e env outcome path build := by
  cases role with
  | initiator =>
    simp only [establish,establishAsInitiator] at built
    simp only [delivered]
    rcases sent : channel.send s e.capsEnvelope with ⟨err | _,next⟩
    · rw [sent] at built
      cases built
    · simp only [sent] at built
      rcases received : recvPeerCaps channel next .candidate with ⟨err | caps,after⟩
      · rw [received] at built
        cases built
      · rw [received] at built
        obtain ⟨env,taken,read⟩ := recvPeerCaps_eq_ok received
        exact ⟨env,taken,mem_negotiateAndBuild read built⟩
  | responder =>
    simp only [establish,establishAsResponder] at built
    simp only [delivered]
    rcases received : recvPeerCaps channel s .candidate with ⟨err | caps,next⟩
    · rw [received] at built
      cases built
    · simp only [received] at built
      obtain ⟨env,taken,read⟩ := recvPeerCaps_eq_ok received
      rcases sent : channel.send next e.capsEnvelope with ⟨err | _,after⟩
      · rw [sent] at built
        cases built
      · rw [sent] at built
        exact ⟨env,taken,mem_negotiateAndBuild read built⟩

/-- The factory is never asked for a WebRTC transport without the verified pin, nor for a QUIC one against a commitment. -/
theorem builds_gated (built : build ∈ (establish channel factory e role s outcome path).builds) :
    build.kind = .webrtc ∧ build.webrtcPeerPin = some outcome.peerBindCert.fields.dtlsFprCommit ∧
        outcome.peerBindCert.fields.dtlsFprCommit ≠ Vector.replicate 32 0 ∨
      build.kind = .quic ∧ build.webrtcPeerPin = none ∧ outcome.peerBindCert.fields.dtlsFprAlg ≠ dtlsFprAlgSha256 := by
  obtain ⟨env,-,source⟩ := builtFrom_of_mem built
  exact dtlsGate_spec source.gated

/-- Two ends whose envelopes reach each other build the same kind of transport. -/
theorem ends_agree {S' T' : Type} {channel' : SignalingChannel S'} {factory' : TransportFactory T'} {e' : SessionEstablisher}
    {role' : HandshakeRole} {s' : S'} {outcome' : NoiseHandshake.Outcome} {path' : IcePathOutcome} {build' : Build}
    (there : delivered channel e role s = some e'.capsEnvelope) (back : delivered channel' e' role' s' = some e.capsEnvelope)
    (built : build ∈ (establish channel factory e role s outcome path).builds)
    (built' : build' ∈ (establish channel' factory' e' role' s' outcome' path').builds) : build.kind = build'.kind := by
  obtain ⟨env,taken,⟨caps,read,chosen⟩,-,-⟩ := builtFrom_of_mem built
  obtain ⟨env',taken',⟨caps',read',chosen'⟩,-,-⟩ := builtFrom_of_mem built'
  obtain rfl := Option.some.inj (there.symm.trans taken)
  obtain rfl := Option.some.inj (back.symm.trans taken')
  obtain rfl := Except.ok.inj ((readPeerCaps_capsEnvelope e').symm.trans read)
  obtain rfl := Except.ok.inj ((readPeerCaps_capsEnvelope e).symm.trans read')
  exact Except.ok.inj (chosen.symm.trans (negotiate_swap chosen'))

/-- Only an envelope that names a common transport leads to a build. -/
theorem namesCommonTransport_of_build (taken : delivered channel e role s = some env)
    (built : (establish channel factory e role s outcome path).builds ≠ []) : e.NamesCommonTransport env := by
  obtain ⟨build,member⟩ := List.exists_mem_of_ne_nil _ built
  obtain ⟨env',taken',⟨caps,read,chosen⟩,-,-⟩ := builtFrom_of_mem member
  obtain rfl := Option.some.inj (taken.symm.trans taken')
  obtain ⟨kind,mask,payload,rfl⟩ := readPeerCaps_eq_ok_iff.mp read
  exact ⟨kind,mask,payload,build.kind,negotiate_eq_ok chosen⟩

/-- A relay that takes everything and hands over one envelope. -/
def handsOver (env : SignalingEnvelope) : SignalingChannel Unit := ⟨fun _ _ => (.ok (),()),fun _ => (.ok env,())⟩

def outcomeWith (dtlsFprAlg : UInt8) (dtlsFprCommit : Key) : NoiseHandshake.Outcome :=
  let fields : TbsFields := ⟨Vector.replicate 32 9,Vector.replicate 32 7,dtlsFprAlg,dtlsFprCommit,[],3600,0⟩
  { transport := ⟨Vector.replicate 32 5⟩
    role := .initiator
    handshakeHash := Vector.replicate 32 3
    peerIdentity := Vector.replicate 32 9
    peerBindCert := ⟨BindCert.buildTbs fields,Vector.replicate 64 0,fields⟩
    pattern := .xk }

theorem exists_gate_passed (kind : TransportKind) : ∃ outcome pin, dtlsGate outcome kind = .ok pin := by
  cases kind with
  | quic => exact ⟨outcomeWith dtlsFprAlgNone (Vector.replicate 32 0),none,rfl⟩
  | webrtc => exact ⟨outcomeWith dtlsFprAlgSha256 (Vector.replicate 32 1),some (Vector.replicate 32 1),by decide⟩

theorem builds_handsOver {kind : TransportKind} {pin : Option Key}
    (read : readPeerCaps .candidate env = .ok caps) (chosen : negotiate e.localCaps caps = .ok kind)
    (passed : dtlsGate outcome kind = .ok pin) :
    (establish (handsOver env) factory e role () outcome path).builds = [⟨kind,path,pin⟩] := by
  cases role <;>
    simp [establish,establishAsInitiator,establishAsResponder,recvPeerCaps,handsOver,read,negotiateAndBuild,chosen,passed]

/-- The transport sets are bound to the peer for the envelopes that come from it, and for those that no
end would build on; the identity fields of any other envelope are not looked at. -/
theorem caps_bound_iff (e : SessionEstablisher) (env : SignalingEnvelope) :
    e.BoundToPeer env ↔ e.Intended env ∨ ¬e.NamesCommonTransport env := by
  constructor
  · intro bound
    by_contra neither
    obtain ⟨foreign,names⟩ := not_or.mp neither
    obtain ⟨kind,mask,payload,common,here,there⟩ := not_not.mp names
    obtain ⟨chosen,choice⟩ := exists_negotiate here there
    obtain ⟨outcome,pin,passed⟩ := exists_gate_passed chosen
    have read : readPeerCaps .candidate env = .ok (.ofMask mask) := readPeerCaps_eq_ok_iff.mpr ⟨kind,mask,payload,rfl⟩
    have direct : IcePathOutcome := ⟨.v4 0 0,.v4 0 0,false⟩
    have builds := @builds_handsOver Unit (fun _ _ _ => .ok ()) e .initiator outcome direct _ env _ _ read choice passed
    refine foreign (bound (handsOver env) (fun _ _ _ => .ok ()) .initiator () outcome direct rfl ?_)
    rw [builds]
    exact List.cons_ne_nil _ _
  · rintro (intended | silent)
    · intro _ _ _ _ _ _ _ _ _ _
      exact intended
    · intro _ _ _ _ _ _ _ _ taken built
      exact absurd (namesCommonTransport_of_build taken built) silent

end SessionEstablisher

namespace Transparent

/-- An end with both transports that waits for the peer b. -/
def waitingEnd : SessionEstablisher :=
  ⟨⟨true,true⟩,List.replicate 64 'a',List.replicate 64 'b',Vector.replicate 16 1⟩

/-- Another device's caps, sent to a third one in another session. -/
def strayCaps (mask : UInt8) : SignalingEnvelope :=
  ⟨.candidate,Vector.replicate 16 2,List.replicate 64 'c',List.replicate 64 'd',[transportCapsVersion,mask]⟩

def directPath : IcePathOutcome := ⟨.v4 0x0A000001 5000,.v4 0x0A000002 5000,false⟩

end Transparent

namespace SessionEstablisher

open Transparent

/-- The intended peer's caps are bound to it; a stray envelope that names no transport builds nothing. -/
theorem caps_bound_peer : waitingEnd.BoundToPeer { strayCaps 3 with
      fromFp := waitingEnd.peerFp, toFp := waitingEnd.localFp, sessionId := waitingEnd.sessionId } ∧
    waitingEnd.BoundToPeer (strayCaps 0) := by
  refine ⟨(caps_bound_iff _ _).mpr (.inl ⟨rfl,rfl,rfl⟩),(caps_bound_iff _ _).mpr (.inr ?_)⟩
  rintro ⟨-,mask,payload,kind,-,there⟩
  obtain rfl : 0 = mask := (List.cons.inj (List.cons.inj payload).2).1
  cases kind <;> cases there

/-- In both roles the transport follows the envelope of a device that is not the peer. -/
theorem stray_caps_taken : ¬waitingEnd.BoundToPeer (strayCaps 1) ∧ ∀ role,
    (establish (handsOver (strayCaps 1)) (fun _ _ _ => .ok ()) waitingEnd role ()
      (outcomeWith dtlsFprAlgNone (Vector.replicate 32 0)) directPath).builds = [⟨.quic,directPath,none⟩] ∧
    (establish (handsOver (strayCaps 2)) (fun _ _ _ => .ok ()) waitingEnd role ()
      (outcomeWith dtlsFprAlgSha256 (Vector.replicate 32 1)) directPath).builds =
        [⟨.webrtc,directPath,some (Vector.replicate 32 1)⟩] := by
  have foreign : ¬waitingEnd.Intended (strayCaps 1) := by decide
  have quic : ∀ role, (establish (handsOver (strayCaps 1)) (fun _ _ _ => .ok ()) waitingEnd role ()
      (outcomeWith dtlsFprAlgNone (Vector.replicate 32 0)) directPath).builds = [⟨.quic,directPath,none⟩] :=
    fun _ => builds_handsOver rfl rfl rfl
  refine ⟨fun bound => foreign (bound (handsOver (strayCaps 1)) (fun _ _ _ => .ok ()) .initiator ()
    (outcomeWith dtlsFprAlgNone (Vector.replicate 32 0)) directPath rfl ?_),fun role => ⟨quic role,builds_handsOver rfl rfl ?_⟩⟩
  · rw [quic]
    exact List.cons_ne_nil _ _
  · decide

end SessionEstablisher

end Streamhaul
