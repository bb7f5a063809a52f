import Streamhaul.AssocMap
import Streamhaul.Machine
import Streamhaul.SignalingEnvelope

/-! The signaling server: connections, the registry of sessions, and the relay between
peers. Connections interleave at every point where their tasks can: registry operations
and queue operations are atomic, and forwarding looks the peer up in one step and sends in
another. The authenticator is an arbitrary predicate. -/
namespace Streamhaul

def maxSessions : Nat := 10000
def maxPeersPerSession : Nat := 2
def maxConnections : Nat := 20000
def queueCapacity : Nat := 64
def maxWsMessageSize : Nat := envelopeHeaderLen + maxPayloadLen

structure AuthContext where
  claimedFp : Text
  sessionId : SessionId
  challenge : Vector UInt8 32
  proof : Bytes

abbrev Authenticator := AuthContext → Bool

/-- The sender half of a queue is the number of the connection that holds the other half. -/
abbrev Registry := AssocMap SessionId (AssocMap Text Nat)

inductive Phase where
  | running
  | forwarding (env : SignalingEnvelope) (target : Nat)
  | exiting
  | notifying (bye : SignalingEnvelope) (target : Nat)
  | ended
  deriving DecidableEq

structure Connection where
  challenge : Vector UInt8 32
  registeredFp : Option Text
  registeredSession : Option SessionId
  queue : List SignalingEnvelope
  phase : Phase
  deriving DecidableEq

structure Server where
  connections : List Connection
  registry : Registry
  deriving DecidableEq

/-- What happens around the connections: messages and closures arrive, tasks get to run.
The flags say whether a write to the connection's own socket succeeds. -/
inductive ServerCall where
  | accept (challenge : Vector UInt8 32) (sinkOk : Bool)
  | message (c : Nat) (bytes : Bytes) (sinkOk : Bool)
  | trySend (c : Nat)
  | routed (c : Nat) (sinkOk : Bool)
  | hangUp (c : Nat)
  | helloTimeout (c : Nat)
  | cleanup (c : Nat) (pick : Nat)
  | notify (c : Nat)

def ServerCall.connection : ServerCall → Option Nat
  | .accept _ _ => none
  | .message c _ _ | .trySend c | .routed c _ | .hangUp c | .helloTimeout c | .cleanup c _ | .notify c => some c

/-- What was written to the connection's socket, and what was placed on whose queue. -/
structure ServerResponse where
  wire : List Bytes
  placed : Option (Nat × SignalingEnvelope)
  deriving DecidableEq

namespace Registry

def lookup (registry : Registry) (sessionId : SessionId) (fp : Text) : Option Nat :=
  (registry.get? sessionId).bind (fun session => session.get? fp)

def register (registry : Registry) (sessionId : SessionId) (fp : Text) (c : Nat) :
    Except SignalingError Registry :=
  if ¬registry.contains sessionId ∧ registry.size ≥ maxSessions then .error (.sessionTableFull maxSessions)
  else
    let session := (registry.get? sessionId).getD AssocMap.empty
    if session.size ≥ maxPeersPerSession ∧ ¬session.contains fp then .error (.sessionFull maxPeersPerSession)
    else .ok (registry.insert sessionId (session.insert fp c))

/-- Removes a peer and its session when that is left empty, and picks a remaining peer. Any
of them may come first in a hash map. -/
def unregister (registry : Registry) (sessionId : SessionId) (fp : Text) (pick : Nat) : Option Nat × Registry :=
  match registry.get? sessionId with
  | none => (none,registry)
  | some session =>
    let rest := session.erase fp
    (rest.values[pick % rest.values.length]?,
      if rest.size = 0 then registry.erase sessionId else registry.insert sessionId rest)

end Registry

/-- The first half of `forward_to_peer`. -/
def lookupPeer (registry : Registry) (env : SignalingEnvelope) : Except SignalingError Nat :=
  match registry.get? env.sessionId with
  | none => .error (.sessionNotFound env.sessionId)
  | some session =>
    match session.get? env.toFp with
    | none => .error (.peerNotFound env.toFp)
    | some target => .ok target

inductive Dispatch where
  | quiet
  | failed (e : SignalingError)
  | registered (env : SignalingEnvelope) (registry : Registry)
  | forward (env : SignalingEnvelope) (target : Nat)

section Message

variable (authenticate : Authenticator) (registry : Registry) (c : Nat) (conn : Connection)

def handleHello (env : SignalingEnvelope) : Dispatch :=
  if conn.registeredFp.isSome then .failed .alreadyRegistered
  else if ¬authenticate ⟨env.fromFp,env.sessionId,conn.challenge,env.payload⟩ then .failed .authenticationFailed
  else match registry.register env.sessionId env.fromFp c with
    | .error e => .failed e
    | .ok registry => .registered env registry

def dispatch (env : SignalingEnvelope) : Dispatch :=
  match env.kind with
  | .hello => handleHello authenticate registry c conn env
  | .bye =>
    match lookupPeer registry env with
    | .error _ => .quiet
    | .ok target => .forward env target
  | .offer | .answer | .candidate | .endOfCandidates | .noise =>
    match lookupPeer registry env with
    | .error e => .failed e
    | .ok target => .forward env target
  | .error | .challenge => .failed .unexpectedMessageType

/-- The spoof check binds a registered connection to its fingerprint; the session id of a
relayed envelope is not compared with anything. -/
def handleEnvelope (env : SignalingEnvelope) : Dispatch :=
  match conn.registeredFp with
  | some registered =>
    if env.fromFp ≠ registered then .failed (.fingerprintSpoofAttempt registered env.fromFp)
    else dispatch authenticate registry c conn env
  | none => dispatch authenticate registry c conn env

def handleMessage (bytes : Bytes) : Dispatch :=
  match SignalingEnvelope.decode bytes with
  | .error e => .failed e
  | .ok env => handleEnvelope authenticate registry c conn env

end Message

def zeroFp : Text := List.replicate 64 '0'

def helloAck (env : SignalingEnvelope) : SignalingEnvelope := ⟨.hello,env.sessionId,env.fromFp,env.fromFp,[]⟩

def makeBye (sessionId : SessionId) (fp : Text) : SignalingEnvelope := ⟨.bye,sessionId,fp,zeroFp,[]⟩

def makeChallengeEnvelope (challenge : Vector UInt8 32) : SignalingEnvelope :=
  ⟨.challenge,Vector.replicate 16 0,zeroFp,zeroFp,challenge.toList⟩

def makeErrorEnvelope (sessionId : Option SessionId) (fromFp reason : Text) : SignalingEnvelope :=
  let padded := if fromFp.len = 64 then fromFp else zeroFp
  ⟨.error,sessionId.getD (Vector.replicate 16 0),padded,padded,reason.asBytes.take maxPayloadLen⟩

def wireOf (env : SignalingEnvelope) : List Bytes :=
  match env.encode with
  | .ok bytes => [bytes]
  | .error _ => []

/-- The reason a client is given; a spoof attempt never shows the registered fingerprint. -/
def SignalingError.reason : SignalingError → Text
  | .fingerprintSpoofAttempt _ _ => "fingerprint mismatch".toList
  | e => e.display

def errorReply (conn : Connection) (e : SignalingError) : List Bytes :=
  wireOf (makeErrorEnvelope conn.registeredSession (conn.registeredFp.getD []) e.reason)

def SignalingError.fatal : SignalingError → Bool
  | .fingerprintSpoofAttempt _ _ | .authenticationFailed => true
  | _ => false

namespace Connection

def fresh (challenge : Vector UInt8 32) : Connection := ⟨challenge,none,none,[],.running⟩

def enqueue (env : SignalingEnvelope) (conn : Connection) : Connection := { conn with queue := conn.queue ++ [env] }

def register (env : SignalingEnvelope) (phase : Phase) (conn : Connection) : Connection :=
  { conn with registeredFp := some env.fromFp, registeredSession := some env.sessionId, phase := phase }

end Connection

/-- A connection goes on unless something told it to exit. -/
def continueIf (go : Bool) : Phase := if go then .running else .exiting

namespace Server

def empty : Server := ⟨[],AssocMap.empty⟩

def update (s : Server) (c : Nat) (f : Connection → Connection) : Server :=
  { s with connections := s.connections.modify c f }

def setPhase (s : Server) (c : Nat) (phase : Phase) : Server := s.update c (fun conn => { conn with phase := phase })

/-- `try_send`: fails when the queue is full or its connection is gone. -/
def trySend (s : Server) (target : Nat) (env : SignalingEnvelope) : Option Server :=
  match s.connections[target]? with
  | none => none
  | some conn =>
    if conn.phase = .ended ∨ conn.queue.length ≥ queueCapacity then none
    else some (s.update target (Connection.enqueue env))

def onDispatch (s : Server) (c : Nat) (conn : Connection) (sinkOk : Bool) : Dispatch → ServerResponse × Server
  | .quiet => (⟨[],none⟩,s)
  | .failed e => (⟨errorReply conn e,none⟩,s.setPhase c (continueIf !e.fatal))
  | .registered env registry =>
    (⟨wireOf (helloAck env),none⟩,{ s with registry := registry }.update c
      (Connection.register env (continueIf (sinkOk || (wireOf (helloAck env)).isEmpty))))
  | .forward env target => (⟨[],none⟩,s.setPhase c (.forwarding env target))

/-- A message beyond the frame limit is a read error. -/
def onMessage (authenticate : Authenticator) (s : Server) (c : Nat) (conn : Connection) (bytes : Bytes)
    (sinkOk : Bool) : ServerResponse × Server :=
  if bytes.length > maxWsMessageSize then (⟨[],none⟩,s.setPhase c .exiting)
  else s.onDispatch c conn sinkOk (handleMessage authenticate s.registry c conn bytes)

/-- The second half of `forward_to_peer`. A `Bye` is forwarded best-effort. -/
def onTrySend (s : Server) (c : Nat) (conn : Connection) (env : SignalingEnvelope) (target : Nat) :
    ServerResponse × Server :=
  match s.trySend target env with
  | some s' => (⟨[],some (target,env)⟩,s'.setPhase c .running)
  | none =>
    (⟨if env.kind = .bye then [] else errorReply conn (.peerNotFound env.toFp),none⟩,s.setPhase c .running)

def onRouted (s : Server) (c : Nat) (env : SignalingEnvelope) (rest : List SignalingEnvelope) (sinkOk : Bool) :
    ServerResponse × Server :=
  (⟨wireOf env,none⟩,s.update c (fun conn => { conn with
    queue := rest, phase := continueIf (sinkOk || (wireOf env).isEmpty) }))

def onCleanup (s : Server) (c : Nat) (conn : Connection) (pick : Nat) : Server :=
  match conn.registeredSession, conn.registeredFp with
  | some sessionId, some fp =>
    match s.registry.unregister sessionId fp pick with
    | (none,registry) => { s with registry := registry }.setPhase c .ended
    | (some target,registry) =>
      { s with registry := registry }.setPhase c (.notifying (makeBye sessionId fp) target)
  | _, _ => s.setPhase c .ended

def onNotify (s : Server) (c : Nat) (bye : SignalingEnvelope) (target : Nat) : ServerResponse × Server :=
  match s.trySend target bye with
  | some s' => (⟨[],some (target,bye)⟩,s'.setPhase c .ended)
  | none => (⟨[],none⟩,s.setPhase c .ended)

def onAccept (s : Server) (challenge : Vector UInt8 32) (sinkOk : Bool) : ServerResponse × Server :=
  if s.connections.countP (fun conn => conn.phase ≠ .ended) ≥ maxConnections then (⟨[],none⟩,s)
  else (⟨wireOf (makeChallengeEnvelope challenge),none⟩,
    if sinkOk then { s with connections := s.connections ++ [Connection.fresh challenge] } else s)

/-- A call to a connection, by the phase its task is in; a task that waits elsewhere does
not take it. -/
def onConnection (authenticate : Authenticator) (s : Server) (c : Nat) (conn : Connection) :
    ServerCall → ServerResponse × Server
  | .message _ bytes sinkOk =>
    if conn.phase = .running then s.onMessage authenticate c conn bytes sinkOk else (⟨[],none⟩,s)
  | .trySend _ =>
    match conn.phase with
    | .forwarding env target => s.onTrySend c conn env target
    | _ => (⟨[],none⟩,s)
  | .routed _ sinkOk =>
    match conn.phase, conn.queue with
    | .running, env :: rest => s.onRouted c env rest sinkOk
    | _, _ => (⟨[],none⟩,s)
  | .hangUp _ => if conn.phase = .running then (⟨[],none⟩,s.setPhase c .exiting) else (⟨[],none⟩,s)
  | .helloTimeout _ =>
    if conn.phase = .running ∧ conn.registeredFp = none then (⟨[],none⟩,s.setPhase c .exiting) else (⟨[],none⟩,s)
  | .cleanup _ pick => if conn.phase = .exiting then (⟨[],none⟩,s.onCleanup c conn pick) else (⟨[],none⟩,s)
  | .notify _ =>
    match conn.phase with
    | .notifying bye target => s.onNotify c bye target
    | _ => (⟨[],none⟩,s)
  | .accept _ _ => (⟨[],none⟩,s)

def step (authenticate : Authenticator) (s : Server) (call : ServerCall) : ServerResponse × Server :=
  match call with
  | .accept challenge sinkOk => s.onAccept challenge sinkOk
  | .message c _ _ | .trySend c | .routed c _ | .hangUp c | .helloTimeout c | .cleanup c _ | .notify c =>
    match s.connections[c]? with
    | none => (⟨[],none⟩,s)
    | some conn => s.onConnection authenticate c conn call

end Server

end Streamhaul
