import Streamhaul.SignalingServer

/-! What one step of the signaling server can do: to the registry, to each connection and
to the queues. Everything about whole runs is derived from these moves. -/
namespace Streamhaul

namespace Registry

theorem lookup_insert (registry : Registry) (sessionId other : SessionId) (session : AssocMap Text Nat) (fp : Text) :
    Registry.lookup (registry.insert sessionId session) other fp =
      if other = sessionId then session.get? fp else registry.lookup other fp := by
  unfold lookup
  rw [AssocMap.get?_insert]
  split <;> rfl

theorem lookup_erase (registry : Registry) (sessionId other : SessionId) (fp : Text) :
    Registry.lookup (registry.erase sessionId) other fp =
      if other = sessionId then none else registry.lookup other fp := by
  unfold lookup
  rw [AssocMap.get?_erase]
  split <;> rfl

theorem get?_getD_empty (registry : Registry) (sessionId : SessionId) (fp : Text) :
    ((registry.get? sessionId).getD AssocMap.empty).get? fp = registry.lookup sessionId fp := by
  unfold lookup
  cases registry.get? sessionId <;> rfl

theorem lookup_register {registry registry' : Registry} {sessionId : SessionId} {fp : Text} {c : Nat}
    (done : registry.register sessionId fp c = .ok registry') (other : SessionId) (fp' : Text) :
    registry'.lookup other fp' =
      if other = sessionId ∧ fp' = fp then some c else registry.lookup other fp' := by
  unfold register at done
  split at done
  · cases done
  · dsimp only at done
    split at done
    · cases done
    · cases done
      rw [lookup_insert,AssocMap.get?_insert,get?_getD_empty]
      by_cases session : other = sessionId
      · subst session
        by_cases same : fp' = fp <;> simp [same]
      · simp [session]

theorem lookup_unregister (registry : Registry) (sessionId : SessionId) (fp : Text) (pick : Nat) (other : SessionId)
    (fp' : Text) : (registry.unregister sessionId fp pick).2.lookup other fp' =
      if other = sessionId ∧ fp' = fp then none else registry.lookup other fp' := by
  unfold unregister
  cases present : registry.get? sessionId with
  | none =>
    dsimp only
    split
    · next same => simp [lookup,same.1,present]
    · rfl
  | some session =>
    have rest : ∀ fp', (session.erase fp).get? fp' = if fp' = fp then none else registry.lookup sessionId fp' := by
      intro fp'
      rw [AssocMap.get?_erase]
      simp [lookup,present]
    by_cases same : other = sessionId
    · subst same
      dsimp only
      split
      · next gone =>
        have none : (session.erase fp).get? fp' = none := by
          cases found : (session.erase fp).get? fp' with
          | none => rfl
          | some t => exact absurd (AssocMap.size_pos found) (by omega)
        rw [rest] at none
        simpa [lookup_erase] using none.symm
      · simp [lookup_insert,rest]
    · dsimp only
      split <;> simp [lookup_erase,lookup_insert,same]

/-- Unregistering adds nothing, and the peer it picks is of the same session. -/
theorem unregister_spec (registry : Registry) (sessionId : SessionId) (fp : Text) (pick : Nat) :
    (∀ other fp' t, (registry.unregister sessionId fp pick).2.lookup other fp' = some t →
      registry.lookup other fp' = some t) ∧
    ∀ t, (registry.unregister sessionId fp pick).1 = some t → ∃ fp', registry.lookup sessionId fp' = some t := by
  constructor
  · intro other fp' t found
    rw [lookup_unregister] at found
    split at found
    · cases found
    · exact found
  · intro t picked
    unfold unregister at picked
    cases present : registry.get? sessionId with
    | none => simp [present] at picked
    | some session =>
      simp only [present] at picked
      obtain ⟨fp',found⟩ := (AssocMap.mem_values_iff _ t).mp (List.mem_of_getElem? picked)
      rw [AssocMap.get?_erase] at found
      split at found
      · cases found
      · exact ⟨fp',by simpa [lookup,present] using found⟩

end Registry

variable {env : SignalingEnvelope}

theorem lookup_of_lookupPeer {registry : Registry} {target : Nat}
    (found : lookupPeer registry env = .ok target) : registry.lookup env.sessionId env.toFp = some target := by
  unfold lookupPeer at found
  cases present : registry.get? env.sessionId with
  | none => rw [present] at found; cases found
  | some session =>
    cases peer : session.get? env.toFp with
    | none => simp [present,peer] at found
    | some t => simpa [Registry.lookup,present,peer] using found

/-- What a message can come to, with everything that was checked on the way. -/
inductive Handled (authenticate : Authenticator) (registry : Registry) (c : Nat) (conn : Connection) (bytes : Bytes) :
    Dispatch → Prop
  | quiet : Handled authenticate registry c conn bytes .quiet
  | failed (e : SignalingError) : Handled authenticate registry c conn bytes (.failed e)
  | registered (env : SignalingEnvelope) (registry' : Registry)
      (decoded : SignalingEnvelope.decode bytes = .ok env) (hello : env.kind = .hello)
      (first : conn.registeredFp = none)
      (accepted : authenticate ⟨env.fromFp,env.sessionId,conn.challenge,env.payload⟩ = true)
      (done : registry.register env.sessionId env.fromFp c = .ok registry') :
      Handled authenticate registry c conn bytes (.registered env registry')
  | forward (env : SignalingEnvelope) (target : Nat)
      (decoded : SignalingEnvelope.decode bytes = .ok env) (relayed : env.kind.relayed = true)
      (bound : ∀ fp, conn.registeredFp = some fp → env.fromFp = fp)
      (found : registry.lookup env.sessionId env.toFp = some target) :
      Handled authenticate registry c conn bytes (.forward env target)

section Message

variable (authenticate : Authenticator) (registry : Registry) (c : Nat) (conn : Connection)

theorem handleHello_spec (bytes : Bytes) (env : SignalingEnvelope)
    (decoded : SignalingEnvelope.decode bytes = .ok env) (hello : env.kind = .hello) :
    Handled authenticate registry c conn bytes (handleHello authenticate registry c conn env) := by
  unfold handleHello
  split
  · exact .failed _
  · next first =>
    split
    · exact .failed _
    · next accepted =>
      cases done : registry.register env.sessionId env.fromFp c with
      | error e => exact .failed e
      | ok registry' =>
        apply Handled.registered env registry' decoded hello
        · simpa using first
        · simpa using accepted
        · exact done

theorem dispatch_spec (bytes : Bytes) (env : SignalingEnvelope)
    (decoded : SignalingEnvelope.decode bytes = .ok env)
    (bound : ∀ fp, conn.registeredFp = some fp → env.fromFp = fp) :
    Handled authenticate registry c conn bytes (dispatch authenticate registry c conn env) := by
  have forward : ∀ target, lookupPeer registry env = .ok target → env.kind.relayed = true →
      Handled authenticate registry c conn bytes (.forward env target) :=
    fun target found relayed => .forward env target decoded relayed bound (lookup_of_lookupPeer found)
  unfold dispatch
  cases kind : env.kind with
  | hello => exact handleHello_spec authenticate registry c conn bytes env decoded kind
  | error => exact .failed _
  | challenge => exact .failed _
  | bye =>
    cases found : lookupPeer registry env with
    | error e => exact .quiet
    | ok target =>
      apply forward target found
      rw [kind]
      rfl
  | offer | answer | candidate | endOfCandidates | noise =>
    cases found : lookupPeer registry env with
    | error e => exact .failed e
    | ok target =>
      apply forward target found
      rw [kind]
      rfl

theorem handleMessage_spec (bytes : Bytes) :
    Handled authenticate registry c conn bytes (handleMessage authenticate registry c conn bytes) := by
  unfold handleMessage
  cases decoded : SignalingEnvelope.decode bytes with
  | error e => exact .failed e
  | ok env =>
    dsimp only [handleEnvelope]
    cases registered : conn.registeredFp with
    | none =>
      apply dispatch_spec authenticate registry c conn bytes env decoded
      intro fp bound
      rw [registered] at bound
      cases bound
    | some fp =>
      dsimp only
      split
      · exact .failed _
      · next same =>
        apply dispatch_spec authenticate registry c conn bytes env decoded
        intro fp' bound
        rw [registered] at bound
        cases bound
        exact not_not.mp same

end Message

namespace Phase

/-- Waiting for no queue of another connection. -/
def Settled (phase : Phase) : Prop := phase = .running ∨ phase = .exiting ∨ phase = .ended

theorem settled_continueIf (go : Bool) : (continueIf go).Settled := by
  cases go
  · exact .inr (.inl rfl)
  · exact .inl rfl

def live : Phase → Bool
  | .running | .forwarding _ _ | .exiting => true
  | .notifying _ _ | .ended => false

theorem live_continueIf (go : Bool) : (continueIf go).live = true := by
  cases go <;> rfl

theorem Settled.not_forwarding {phase : Phase} (settled : phase.Settled) {env : SignalingEnvelope} {target : Nat} :
    phase ≠ .forwarding env target := by
  rcases settled with rfl | rfl | rfl <;> exact Phase.noConfusion

end Phase

namespace Connection

def registration (conn : Connection) : Option (SessionId × Text) :=
  conn.registeredSession.bind fun sessionId => conn.registeredFp.map fun fp => (sessionId,fp)

/-- A change that keeps who the connection is registered as. -/
def Keeps (f : Connection → Connection) : Prop :=
  ∀ conn, (f conn).registeredFp = conn.registeredFp ∧ (f conn).registeredSession = conn.registeredSession

end Connection

/-- Whatever encodes fits a WebSocket message. -/
theorem SignalingEnvelope.Valid.fits (valid : env.Valid) :
    (env.header ++ env.payload).length ≤ maxWsMessageSize := by
  have := valid.payload
  rw [List.length_append,length_header valid,maxWsMessageSize]
  omega

theorem SignalingEnvelope.Valid.decoded (valid : env.Valid) :
    SignalingEnvelope.decode (env.header ++ env.payload) = .ok env := by
  have decoded := decode_encode_append valid []
  rw [List.append_nil] at decoded
  exact decoded

namespace Server

def registration (s : Server) (c : Nat) : Option (SessionId × Text) := (s.connections[c]?).bind Connection.registration

def received (s : Server) (c : Nat) (bytes : Bytes) : Option (Connection × SignalingEnvelope) :=
  match s.connections[c]?, SignalingEnvelope.decode bytes with
  | some conn, .ok env =>
    if conn.phase = .running ∧ bytes.length ≤ maxWsMessageSize then some (conn,env) else none
  | _, _ => none

/-- One step, by what it changes. -/
inductive Move (authenticate : Authenticator) (s : Server) : ServerCall → ServerResponse × Server → Prop
  | idle (call : ServerCall) (wire : List Bytes) : Move authenticate s call (⟨wire,none⟩,s)
  | opened (challenge : Vector UInt8 32) (sinkOk : Bool) (wire : List Bytes) :
      Move authenticate s (.accept challenge sinkOk)
        (⟨wire,none⟩,{ s with connections := s.connections ++ [Connection.fresh challenge] })
  | settled (call : ServerCall) (c : Nat) (f : Connection → Connection) (wire : List Bytes)
      (keeps : Connection.Keeps f) (after : ∀ conn, (f conn).phase.Settled)
      (queue : ∀ conn, (f conn).queue = conn.queue)
      (lives : ∀ conn, s.connections[c]? = some conn →
        (f conn).phase.live = conn.phase.live ∨ conn.registration = none ∧ conn.phase.live = true) :
      Move authenticate s call (⟨wire,none⟩,s.update c f)
  | delivered (c : Nat) (sinkOk : Bool) (conn : Connection) (env : SignalingEnvelope) (rest : List SignalingEnvelope)
      (here : s.connections[c]? = some conn) (running : conn.phase = .running) (queue : conn.queue = env :: rest) :
      Move authenticate s (.routed c sinkOk) (s.onRouted c env rest sinkOk)
  | registered (c : Nat) (bytes : Bytes) (sinkOk : Bool) (conn : Connection) (env : SignalingEnvelope)
      (registry : Registry) (go : Bool) (wire : List Bytes)
      (here : s.received c bytes = some (conn,env)) (hello : env.kind = .hello) (first : conn.registeredFp = none)
      (accepted : authenticate ⟨env.fromFp,env.sessionId,conn.challenge,env.payload⟩ = true)
      (done : s.registry.register env.sessionId env.fromFp c = .ok registry) :
      Move authenticate s (.message c bytes sinkOk)
        (⟨wire,none⟩,{ s with registry := registry }.update c (Connection.register env (continueIf go)))
  | forwarding (c : Nat) (bytes : Bytes) (sinkOk : Bool) (conn : Connection) (env : SignalingEnvelope) (target : Nat)
      (here : s.received c bytes = some (conn,env)) (relayed : env.kind.relayed = true)
      (bound : ∀ fp, conn.registeredFp = some fp → env.fromFp = fp)
      (found : s.registry.lookup env.sessionId env.toFp = some target) :
      Move authenticate s (.message c bytes sinkOk) (⟨[],none⟩,s.setPhase c (.forwarding env target))
  | placed (call : ServerCall) (c : Nat) (conn : Connection) (env : SignalingEnvelope) (target : Nat) (next : Phase)
      (here : s.connections[c]? = some conn)
      (waiting : call = .trySend c ∧ conn.phase = .forwarding env target ∧ next = .running ∨
        call = .notify c ∧ conn.phase = .notifying env target ∧ next = .ended) :
      Move authenticate s call (⟨[],some (target,env)⟩,(s.update target (Connection.enqueue env)).setPhase c next)
  | cleaned (c : Nat) (pick : Nat) (conn : Connection) (sessionId : SessionId) (fp : Text)
      (here : s.connections[c]? = some conn) (leaving : conn.phase = .exiting)
      (identity : conn.registration = some (sessionId,fp)) :
      Move authenticate s (.cleanup c pick)
        (⟨[],none⟩,{ s with registry := (s.registry.unregister sessionId fp pick).2 }.setPhase c
          (match (s.registry.unregister sessionId fp pick).1 with
            | none => .ended
            | some target => .notifying (makeBye sessionId fp) target))

variable {call : ServerCall}

/-- Whoever waited for a queue goes on or ends. -/
theorem settled_of_waiting {c target : Nat} {phase next : Phase} {env : SignalingEnvelope}
    (waiting : call = .trySend c ∧ phase = .forwarding env target ∧ next = .running ∨
      call = .notify c ∧ phase = .notifying env target ∧ next = .ended) : next.Settled := by
  rcases waiting with ⟨_,_,rfl⟩ | ⟨_,_,rfl⟩
  · exact .inl rfl
  · exact .inr (.inr rfl)

theorem move_setPhase (authenticate : Authenticator) {s : Server} (call : ServerCall) {c : Nat} {conn : Connection}
    (here : s.connections[c]? = some conn) (wire : List Bytes) {phase : Phase} (after : phase.Settled)
    (lives : phase.live = conn.phase.live ∨ conn.registration = none ∧ conn.phase.live = true) :
    Move authenticate s call (⟨wire,none⟩,s.setPhase c phase) := by
  apply Move.settled call c _ wire
  · exact fun _ => ⟨rfl,rfl⟩
  · exact fun _ => after
  · exact fun _ => rfl
  · intro conn' same
    cases here.symm.trans same
    exact lives

theorem trySend_eq {s s' : Server} {target : Nat} {env : SignalingEnvelope} (sent : s.trySend target env = some s') :
    s' = s.update target (Connection.enqueue env) := by
  unfold trySend at sent
  split at sent
  · cases sent
  · split at sent
    · cases sent
    · cases sent
      rfl

variable (authenticate : Authenticator) (s : Server) (c : Nat) (conn : Connection)

theorem onMessage_move (bytes : Bytes) (sinkOk : Bool) (here : s.connections[c]? = some conn)
    (running : conn.phase = .running) :
    Move authenticate s (.message c bytes sinkOk) (s.onMessage authenticate c conn bytes sinkOk) := by
  have alive : conn.phase.live = true := by rw [running]; rfl
  unfold onMessage
  split
  · exact move_setPhase authenticate _ here _ (.inr (.inl rfl)) (.inl alive.symm)
  · next fits =>
    have received : ∀ env, SignalingEnvelope.decode bytes = .ok env → s.received c bytes = some (conn,env) := by
      intro env decoded
      simp [Server.received,here,decoded,running,Nat.not_lt.mp fits]
    have handled := handleMessage_spec authenticate s.registry c conn bytes
    generalize handleMessage authenticate s.registry c conn bytes = outcome at handled
    cases handled with
    | quiet => exact .idle _ _
    | failed e =>
      apply move_setPhase authenticate _ here _ (Phase.settled_continueIf _)
      exact .inl ((Phase.live_continueIf _).trans alive.symm)
    | registered env registry decoded hello first accepted done =>
      exact .registered c bytes sinkOk conn env registry _ _ (received env decoded) hello first accepted done
    | forward env target decoded relayed bound found =>
      exact .forwarding c bytes sinkOk conn env target (received env decoded) relayed bound found

theorem onTrySend_move (env : SignalingEnvelope) (target : Nat) (here : s.connections[c]? = some conn)
    (phase : conn.phase = .forwarding env target) :
    Move authenticate s (.trySend c) (s.onTrySend c conn env target) := by
  unfold onTrySend
  cases sent : s.trySend target env with
  | none => exact move_setPhase authenticate _ here _ (.inl rfl) (.inl (by rw [phase]; rfl))
  | some s' =>
    rw [trySend_eq sent]
    exact .placed _ c conn env target .running here (.inl ⟨rfl,phase,rfl⟩)

theorem onNotify_move (bye : SignalingEnvelope) (target : Nat) (here : s.connections[c]? = some conn)
    (phase : conn.phase = .notifying bye target) :
    Move authenticate s (.notify c) (s.onNotify c bye target) := by
  unfold onNotify
  cases sent : s.trySend target bye with
  | none => exact move_setPhase authenticate _ here _ (.inr (.inr rfl)) (.inl (by rw [phase]; rfl))
  | some s' =>
    rw [trySend_eq sent]
    exact .placed _ c conn bye target .ended here (.inr ⟨rfl,phase,rfl⟩)

theorem onCleanup_move (pick : Nat) (here : s.connections[c]? = some conn) (leaving : conn.phase = .exiting) :
    Move authenticate s (.cleanup c pick) (⟨[],none⟩,s.onCleanup c conn pick) := by
  have alive : conn.phase.live = true := by rw [leaving]; rfl
  cases session : conn.registeredSession with
  | none =>
    simp only [onCleanup,session]
    apply move_setPhase authenticate _ here _ (.inr (.inr rfl))
    exact .inr ⟨by simp [Connection.registration,session],alive⟩
  | some sessionId =>
    cases fingerprint : conn.registeredFp with
    | none =>
      simp only [onCleanup,session,fingerprint]
      apply move_setPhase authenticate _ here _ (.inr (.inr rfl))
      exact .inr ⟨by simp [Connection.registration,session,fingerprint],alive⟩
    | some fp =>
      have identity : conn.registration = some (sessionId,fp) := by simp [Connection.registration,session,fingerprint]
      have move := @Move.cleaned authenticate s c pick conn sessionId fp here leaving identity
      simp only [onCleanup,session,fingerprint]
      generalize s.registry.unregister sessionId fp pick = left at move
      obtain ⟨_ | target,registry⟩ := left
      · exact move
      · exact move

theorem onConnection_move (call : ServerCall) (here : s.connections[c]? = some conn) (addressed : call.connection = some c) :
    Move authenticate s call (s.onConnection authenticate c conn call) := by
  cases call <;> cases addressed
  case message bytes sinkOk =>
    simp only [onConnection]
    split
    · next running => exact onMessage_move authenticate s c conn bytes sinkOk here running
    · exact .idle _ _
  case trySend =>
    simp only [onConnection]
    split
    · next env target phase => exact onTrySend_move authenticate s c conn env target here phase
    · exact .idle _ _
  case routed sinkOk =>
    simp only [onConnection]
    split
    · next env rest running queue => exact .delivered c sinkOk conn env rest here running queue
    · exact .idle _ _
  case hangUp =>
    simp only [onConnection]
    split
    · next running => exact move_setPhase authenticate _ here _ (.inr (.inl rfl)) (.inl (by rw [running]; rfl))
    · exact .idle _ _
  case helloTimeout =>
    simp only [onConnection]
    split
    · next ready => exact move_setPhase authenticate _ here _ (.inr (.inl rfl)) (.inl (by rw [ready.1]; rfl))
    · exact .idle _ _
  case cleanup pick =>
    simp only [onConnection]
    split
    · next leaving => exact onCleanup_move authenticate s c conn pick here leaving
    · exact .idle _ _
  case notify =>
    simp only [onConnection]
    split
    · next bye target phase => exact onNotify_move authenticate s c conn bye target here phase
    · exact .idle _ _

theorem step_of_absent {c : Nat} (addressed : call.connection = some c)
    (absent : s.connections[c]? = none) : step authenticate s call = (⟨[],none⟩,s) := by
  cases call <;> cases addressed <;> simp only [step,absent]

theorem step_of_present {c : Nat} {conn : Connection} (addressed : call.connection = some c)
    (here : s.connections[c]? = some conn) : step authenticate s call = s.onConnection authenticate c conn call := by
  cases call <;> cases addressed <;> simp only [step,here]

theorem step_move (call : ServerCall) : Move authenticate s call (step authenticate s call) := by
  cases addressed : call.connection with
  | none =>
    cases call <;> cases addressed
    next challenge sinkOk =>
    simp only [step,onAccept]
    split
    · exact .idle _ _
    · cases sinkOk
      · exact .idle _ _
      · exact .opened challenge true _
  | some c =>
    cases here : s.connections[c]? with
    | none =>
      rw [step_of_absent authenticate s addressed here]
      exact .idle _ _
    | some conn =>
      rw [step_of_present authenticate s addressed here]
      exact onConnection_move authenticate s c conn call here addressed

end Server

end Streamhaul
