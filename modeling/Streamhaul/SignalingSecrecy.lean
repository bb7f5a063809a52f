import Streamhaul.SignalingLifecycle

/-! The relay does not look at payloads. Two runs that differ in the payloads of relayed
envelopes only are indistinguishable but for these payloads, and what a recipient decodes
is what the sender put in. -/
namespace Streamhaul

def SignalingEnvelope.blank (env : SignalingEnvelope) : SignalingEnvelope := { env with payload := [] }

def Phase.blank : Phase → Phase
  | .forwarding env target => .forwarding env.blank target
  | .notifying bye target => .notifying bye.blank target
  | phase => phase

def Connection.blank (conn : Connection) : Connection :=
  { conn with queue := conn.queue.map SignalingEnvelope.blank, phase := conn.phase.blank }

/-- Everything a connection holds can be encoded. -/
structure Connection.Carries (conn : Connection) : Prop where
  queued : ∀ env ∈ conn.queue, env.Valid
  named : ∀ fp, conn.registeredFp = some fp → validateFp fp = .ok ()
  waiting : ∀ env target, conn.phase = .forwarding env target ∨ conn.phase = .notifying env target → env.Valid

theorem Phase.Settled.carries {conn : Connection} (settled : conn.phase.Settled)
    (queued : ∀ env ∈ conn.queue, env.Valid)
    (named : ∀ fp, conn.registeredFp = some fp → validateFp fp = .ok ()) : conn.Carries := by
  refine ⟨queued,named,?_⟩
  rintro env target (phase | phase)
  · exact absurd phase settled.not_forwarding
  · rcases settled with other | other | other <;> rw [other] at phase <;> cases phase

theorem makeBye_valid (sessionId : SessionId) {fp : Text} (valid : validateFp fp = .ok ()) :
    (makeBye sessionId fp).Valid :=
  ⟨Nat.zero_le _,valid,show validateFp zeroFp = .ok () by decide⟩

namespace Server

open Machine

def Carried (s : Server) : Prop := ∀ (c : Nat) conn, s.connections[c]? = some conn → conn.Carries

variable {env : SignalingEnvelope} {s : Server} {conn : Connection}

theorem Carried.update (carried : s.Carried) (c : Nat) {f : Connection → Connection}
    (keeps : ∀ conn, s.connections[c]? = some conn → conn.Carries → (f conn).Carries) : (s.update c f).Carried := by
  intro d conn here
  rcases getElem?_update_some here with same | ⟨rfl,old,found,rfl⟩
  · exact carried d conn same
  · exact keeps old found (carried c old found)

theorem Carried.setPhase (carried : s.Carried) (c : Nat) {phase : Phase}
    (holds : ∀ env target, phase = .forwarding env target ∨ phase = .notifying env target → env.Valid) :
    (s.setPhase c phase).Carried := by
  apply carried.update
  intro conn _ own
  exact ⟨own.queued,own.named,holds⟩

theorem settled_holds {phase : Phase} (settled : phase.Settled) (env : SignalingEnvelope) (target : Nat)
    (waits : phase = .forwarding env target ∨ phase = .notifying env target) : env.Valid := by
  rcases settled with rfl | rfl | rfl <;> rcases waits with other | other <;> cases other

theorem valid_of_received {c : Nat} {bytes : Bytes} (here : s.received c bytes = some (conn,env)) : env.Valid :=
  (SignalingEnvelope.decode_ok_iff.mp (received_eq_some here).2.2.1).1

theorem carried_step (authenticate : Authenticator) (s : Server) (call : ServerCall) (carried : s.Carried) :
    (step authenticate s call).2.Carried := by
  have move := step_move authenticate s call
  generalize step authenticate s call = outcome at move
  cases move with
  | idle => exact carried
  | opened challenge =>
    intro d conn here
    rcases getElem?_opened here with same | rfl
    · exact carried d conn same
    · apply Phase.Settled.carries (.inl rfl)
      · intro env member
        cases member
      · intro fp named
        cases named
  | settled _ c f wire keeps after queue lives =>
    apply carried.update
    intro conn _ own
    apply (after conn).carries
    · rw [queue]
      exact own.queued
    · rw [(keeps conn).1]
      exact own.named
  | delivered c sinkOk conn env rest here running queue =>
    apply carried.update
    intro conn' here' own
    cases here.symm.trans here'
    apply (Phase.settled_continueIf _).carries
    · intro env' member
      apply own.queued
      rw [queue]
      exact List.mem_cons_of_mem _ member
    · exact own.named
  | registered c bytes sinkOk conn env registry go wire here hello first accepted done =>
    apply Carried.update (show Carried { s with registry := registry } from carried)
    intro conn' _ own
    apply (Phase.settled_continueIf go).carries
    · exact own.queued
    · intro fp named
      cases named
      exact (valid_of_received here).fromFp
  | forwarding c bytes sinkOk conn env target here relayed bound found =>
    apply carried.setPhase
    rintro env' target' (waits | waits) <;> cases waits
    exact valid_of_received here
  | placed _ c conn env target next here waiting =>
    have own := carried c conn here
    have valid : env.Valid := by
      rcases waiting with ⟨_,phase,_⟩ | ⟨_,phase,_⟩
      · exact own.waiting env target (.inl phase)
      · exact own.waiting env target (.inr phase)
    apply Carried.setPhase _ c (settled_holds (settled_of_waiting waiting))
    apply carried.update
    intro conn' _ own'
    exact ⟨forall_mem_concat own'.queued valid,own'.named,own'.waiting⟩
  | cleaned c pick conn sessionId fp here leaving identity =>
    have own := carried c conn here
    apply Carried.setPhase (show Carried { s with registry := _ } from carried)
    intro env target waits
    split at waits
    · exact settled_holds (.inr (.inr rfl)) env target waits
    · rcases waits with other | other <;> cases other
      exact makeBye_valid sessionId (own.named fp (registeredFp_of_registration identity))

def blank (s : Server) : Server := { s with connections := s.connections.map Connection.blank }

/-- What an observer of the whole server sees of one step: the registry, the replies, what
reached which connection and what was queued for which, without payloads. -/
structure Observation where
  registry : Registry
  replies : List Bytes
  deliveries : List (Nat × Option SignalingEnvelope)
  placed : Option (Nat × SignalingEnvelope)

def observed (call : ServerCall) (outcome : ServerResponse × Server) : Observation :=
  match call with
  | .routed c _ => ⟨outcome.2.registry,[],outcome.1.wire.map (fun bytes =>
      (c,(SignalingEnvelope.decode bytes).toOption.map SignalingEnvelope.blank)),none⟩
  | _ => ⟨outcome.2.registry,outcome.1.wire,[],outcome.1.placed.map (fun sent => (sent.1,sent.2.blank))⟩

def observe (e : Event Server ServerCall ServerResponse) : Observation := observed e.call (e.response,e.after)

/-- Calls that differ at most in the payload of an envelope other than a Hello. -/
inductive SameButPayload : ServerCall → ServerCall → Prop
  | same (call : ServerCall) : SameButPayload call call
  | payload (c : Nat) (sinkOk : Bool) {bytes bytes' : Bytes} {env : SignalingEnvelope} (payload : Bytes)
      (fits : bytes.length ≤ maxWsMessageSize) (decoded : SignalingEnvelope.decode bytes = .ok env)
      (fits' : bytes'.length ≤ maxWsMessageSize)
      (decoded' : SignalingEnvelope.decode bytes' = .ok { env with payload := payload })
      (relayed : env.kind ≠ .hello) : SameButPayload (.message c bytes sinkOk) (.message c bytes' sinkOk)

section Blank

variable (authenticate : Authenticator) (s : Server) {env : SignalingEnvelope}

def view (call : ServerCall) (outcome : ServerResponse × Server) : Observation × Server :=
  (observed call outcome,outcome.2.blank)

theorem blank_idem (env : SignalingEnvelope) : env.blank.blank = env.blank := rfl

theorem phase_blank_idem (phase : Phase) : phase.blank.blank = phase.blank := by cases phase <;> rfl

theorem connection_blank_idem (conn : Connection) : conn.blank.blank = conn.blank := by
  simp [Connection.blank,phase_blank_idem,blank_idem,Function.comp_def]

theorem blank_running (conn : Connection) : conn.blank.phase = .running ↔ conn.phase = .running := by
  cases phase : conn.phase <;> simp [Connection.blank,Phase.blank,phase]

theorem blank_exiting (conn : Connection) : conn.blank.phase = .exiting ↔ conn.phase = .exiting := by
  cases phase : conn.phase <;> simp [Connection.blank,Phase.blank,phase]

theorem blank_ended (conn : Connection) : conn.blank.phase = .ended ↔ conn.phase = .ended := by
  cases phase : conn.phase <;> simp [Connection.blank,Phase.blank,phase]

theorem getElem?_blank (c : Nat) : s.blank.connections[c]? = (s.connections[c]?).map Connection.blank :=
  List.getElem?_map

theorem update_blank (registry : Registry) (c : Nat) {f f' : Connection → Connection}
    (same : ∀ conn, s.connections[c]? = some conn → (f' conn.blank).blank = (f conn).blank) :
    ({ s.blank with registry := registry }.update c f').blank = ({ s with registry := registry }.update c f).blank := by
  unfold blank update
  congr 1
  apply List.ext_getElem?
  intro d
  simp only [List.getElem?_map,List.getElem?_modify,Option.map_eq_map,Option.map_map]
  cases here : s.connections[d]? with
  | none => rfl
  | some conn =>
    by_cases own : c = d
    · subst own
      simp [same conn here]
    · simp [own,connection_blank_idem]

theorem setPhase_blank (registry : Registry) (c : Nat) {phase phase' : Phase} (same : phase'.blank = phase.blank) :
    ({ s.blank with registry := registry }.setPhase c phase').blank =
      ({ s with registry := registry }.setPhase c phase).blank := by
  apply update_blank
  intro conn here
  simp [Connection.blank,same,Function.comp_def,blank_idem]

theorem server_blank_idem : s.blank.blank = s.blank := by
  simp [blank,connection_blank_idem,Function.comp_def]

theorem trySend_blank (target : Nat) (env : SignalingEnvelope) :
    (s.blank.trySend target env.blank).map blank = (s.trySend target env).map blank := by
  unfold trySend
  rw [getElem?_blank]
  cases here : s.connections[target]? with
  | none => rfl
  | some conn =>
    have length : conn.blank.queue.length = conn.queue.length := List.length_map _
    simp only [Option.map_some,blank_ended,length]
    split
    · rfl
    · rw [Option.map_some,Option.map_some]
      congr 1
      apply update_blank
      intro conn' _
      simp [Connection.blank,Connection.enqueue,phase_blank_idem,blank_idem,Function.comp_def]

theorem onDispatch_blank (c : Nat) (conn : Connection) (bytes : Bytes) (sinkOk : Bool) (d : Dispatch) :
    view (.message c bytes sinkOk) (s.blank.onDispatch c conn.blank sinkOk d) =
      view (.message c bytes sinkOk) (s.onDispatch c conn sinkOk d) := by
  cases d with
  | quiet => exact Prod.ext rfl (server_blank_idem s)
  | failed e => exact Prod.ext rfl (setPhase_blank s s.registry c rfl)
  | registered env registry =>
    refine Prod.ext rfl (update_blank s registry c ?_)
    intro conn' _
    simp [Connection.blank,Connection.register,Function.comp_def,blank_idem]
  | forward env target => exact Prod.ext rfl (setPhase_blank s s.registry c rfl)

theorem onMessage_blank (c : Nat) (conn : Connection) (bytes : Bytes) (sinkOk : Bool) :
    view (.message c bytes sinkOk) (s.blank.onMessage authenticate c conn.blank bytes sinkOk) =
      view (.message c bytes sinkOk) (s.onMessage authenticate c conn bytes sinkOk) := by
  unfold onMessage
  split
  · exact Prod.ext rfl (setPhase_blank s s.registry c rfl)
  · exact onDispatch_blank s c conn bytes sinkOk _

theorem trySend_blank_cases (target : Nat) (env : SignalingEnvelope) :
    s.blank.trySend target env.blank = none ∧ s.trySend target env = none ∨
      ∃ s' s'', s.blank.trySend target env.blank = some s' ∧ s.trySend target env = some s'' ∧ s'.blank = s''.blank := by
  have same := trySend_blank s target env
  cases sent : s.trySend target env with
  | none =>
    rw [sent,Option.map_none,Option.map_eq_none_iff] at same
    exact .inl ⟨same,rfl⟩
  | some s'' =>
    rw [sent,Option.map_some,Option.map_eq_some_iff] at same
    obtain ⟨s',sent',equal⟩ := same
    exact .inr ⟨s',s'',sent',rfl,equal⟩

theorem setPhase_of_blank {s' s'' : Server} (same : s'.blank = s''.blank) (c : Nat) {phase phase' : Phase}
    (equal : phase'.blank = phase.blank) : (s'.setPhase c phase').blank = (s''.setPhase c phase).blank := by
  have left : (s'.blank.setPhase c phase').blank = (s'.setPhase c phase').blank := setPhase_blank s' s'.registry c rfl
  have right : (s''.blank.setPhase c phase').blank = (s''.setPhase c phase).blank :=
    setPhase_blank s'' s''.registry c equal
  rw [← left,same,right]

theorem view_of_blank {call : ServerCall} {wire : List Bytes} {placed placed' : Option (Nat × SignalingEnvelope)}
    {s' s'' : Server} (equal : placed'.map (fun sent => (sent.1,sent.2.blank)) =
      placed.map (fun sent => (sent.1,sent.2.blank))) (same : s'.blank = s''.blank) :
    view call (⟨wire,placed'⟩,s') = view call (⟨wire,placed⟩,s'') := by
  have registry : s'.registry = s''.registry := congrArg (fun server => server.registry) same
  unfold view observed
  rw [same]
  cases call <;> simp only [registry,equal]

theorem onTrySend_blank (c : Nat) (conn : Connection) (env : SignalingEnvelope) (target : Nat) :
    view (.trySend c) (s.blank.onTrySend c conn.blank env.blank target) =
      view (.trySend c) (s.onTrySend c conn env target) := by
  unfold onTrySend
  rcases trySend_blank_cases s target env with ⟨left,right⟩ | ⟨s',s'',left,right,same⟩
  · rw [left,right]
    exact Prod.ext rfl (setPhase_blank s s.registry c rfl)
  · rw [left,right]
    exact view_of_blank rfl (setPhase_of_blank same c rfl)

theorem onNotify_blank (c : Nat) (bye : SignalingEnvelope) (target : Nat) :
    view (.notify c) (s.blank.onNotify c bye.blank target) = view (.notify c) (s.onNotify c bye target) := by
  unfold onNotify
  rcases trySend_blank_cases s target bye with ⟨left,right⟩ | ⟨s',s'',left,right,same⟩
  · rw [left,right]
    exact Prod.ext rfl (setPhase_blank s s.registry c rfl)
  · rw [left,right]
    exact view_of_blank rfl (setPhase_of_blank same c rfl)

theorem onCleanup_blank (c : Nat) (conn : Connection) (pick : Nat) :
    view (.cleanup c pick) (⟨[],none⟩,s.blank.onCleanup c conn.blank pick) =
      view (.cleanup c pick) (⟨[],none⟩,s.onCleanup c conn pick) := by
  apply view_of_blank rfl
  unfold onCleanup
  simp only [Connection.blank]
  cases conn.registeredSession with
  | none => exact setPhase_blank s s.registry c rfl
  | some sessionId =>
    cases conn.registeredFp with
    | none => exact setPhase_blank s s.registry c rfl
    | some fp =>
      simp only [show s.blank.registry = s.registry from rfl]
      generalize s.registry.unregister sessionId fp pick = left
      obtain ⟨_ | target,registry⟩ := left
      · exact setPhase_blank s registry c rfl
      · exact setPhase_blank s registry c rfl

theorem wireOf_valid (valid : env.Valid) : wireOf env = [env.header ++ env.payload] := by
  unfold wireOf
  rw [SignalingEnvelope.encode_eq valid]

theorem blank_valid (valid : env.Valid) : env.blank.Valid :=
  ⟨Nat.zero_le _,valid.fromFp,valid.toFp⟩

theorem onRouted_blank (c : Nat) (valid : env.Valid) (rest : List SignalingEnvelope)
    (sinkOk : Bool) : view (.routed c sinkOk) (s.blank.onRouted c env.blank (rest.map SignalingEnvelope.blank) sinkOk) =
      view (.routed c sinkOk) (s.onRouted c env rest sinkOk) := by
  unfold onRouted
  rw [wireOf_valid valid,wireOf_valid (blank_valid valid)]
  apply Prod.ext
  · simp only [view,observed,List.map_cons,valid.decoded,(blank_valid valid).decoded]
    rfl
  · apply update_blank
    intro conn' _
    simp [Connection.blank,Function.comp_def,blank_idem]

theorem onAccept_blank (challenge : Vector UInt8 32) (sinkOk : Bool) :
    view (.accept challenge sinkOk) (s.blank.onAccept challenge sinkOk) =
      view (.accept challenge sinkOk) (s.onAccept challenge sinkOk) := by
  have open_ : s.blank.connections.countP (fun conn => conn.phase ≠ .ended) =
      s.connections.countP (fun conn => conn.phase ≠ .ended) := by
    rw [blank,List.countP_map]
    congr 1
    funext conn
    simp [blank_ended]
  unfold onAccept
  rw [open_]
  split
  · exact view_of_blank rfl (server_blank_idem s)
  · apply view_of_blank rfl
    cases sinkOk
    · exact server_blank_idem s
    · simp [blank,Function.comp_def,connection_blank_idem]

theorem onConnection_blank {c : Nat} {conn : Connection} (own : conn.Carries) (call : ServerCall)
    (addressed : call.connection = some c) :
    view call (s.blank.onConnection authenticate c conn.blank call) =
      view call (s.onConnection authenticate c conn call) := by
  have idle : ∀ call, view call (⟨[],none⟩,s.blank) = view call (⟨[],none⟩,s) :=
    fun call => view_of_blank rfl (server_blank_idem s)
  have exits : ∀ call, view call (⟨[],none⟩,s.blank.setPhase c .exiting) = view call (⟨[],none⟩,s.setPhase c .exiting) :=
    fun call => view_of_blank rfl (setPhase_blank s s.registry c rfl)
  cases call <;> cases addressed
  case message bytes sinkOk =>
    simp only [onConnection,blank_running]
    split
    · exact onMessage_blank authenticate s c conn bytes sinkOk
    · exact idle _
  case trySend =>
    simp only [onConnection,Connection.blank]
    cases conn.phase with
    | forwarding env target => exact onTrySend_blank s c conn env target
    | _ => exact idle _
  case routed sinkOk =>
    simp only [onConnection,Connection.blank]
    cases queue : conn.queue with
    | nil => cases conn.phase <;> exact idle _
    | cons env rest =>
      cases conn.phase with
      | running => exact onRouted_blank s c (own.queued env (queue ▸ List.mem_cons_self)) rest sinkOk
      | _ => exact idle _
  case hangUp =>
    simp only [onConnection,blank_running]
    split
    · exact exits _
    · exact idle _
  case helloTimeout =>
    simp only [onConnection,blank_running,show conn.blank.registeredFp = conn.registeredFp from rfl]
    split
    · exact exits _
    · exact idle _
  case cleanup pick =>
    simp only [onConnection,blank_exiting]
    split
    · exact onCleanup_blank s c conn pick
    · exact idle _
  case notify =>
    simp only [onConnection,Connection.blank]
    cases conn.phase with
    | notifying bye target => exact onNotify_blank s c bye target
    | _ => exact idle _

/-- The payloads a server holds do not show in its next step. -/
theorem view_blank (carried : s.Carried) (call : ServerCall) :
    view call (step authenticate s.blank call) = view call (step authenticate s call) := by
  cases addressed : call.connection with
  | none =>
    cases call <;> cases addressed
    exact onAccept_blank s _ _
  | some c =>
    cases here : s.connections[c]? with
    | none =>
      have absent : s.blank.connections[c]? = none := by rw [getElem?_blank,here]; rfl
      rw [step_of_absent authenticate s addressed here,step_of_absent authenticate s.blank addressed absent]
      exact view_of_blank rfl (server_blank_idem s)
    | some conn =>
      have present : s.blank.connections[c]? = some conn.blank := by rw [getElem?_blank,here]; rfl
      rw [step_of_present authenticate s addressed here,step_of_present authenticate s.blank addressed present]
      exact onConnection_blank authenticate s (carried c conn here) call addressed

/-- Routing reads no payload but a Hello's. -/
theorem handleEnvelope_payload (c : Nat) (conn : Connection) (payload : Bytes) (relayed : env.kind ≠ .hello) :
    handleEnvelope authenticate s.registry c conn { env with payload := payload } =
      handleEnvelope authenticate s.registry c conn env ∨
    ∃ target, handleEnvelope authenticate s.registry c conn env = .forward env target ∧
      handleEnvelope authenticate s.registry c conn { env with payload := payload } =
        .forward { env with payload := payload } target := by
  have routed : dispatch authenticate s.registry c conn { env with payload := payload } =
      dispatch authenticate s.registry c conn env ∨
      ∃ target, dispatch authenticate s.registry c conn env = .forward env target ∧
        dispatch authenticate s.registry c conn { env with payload := payload } =
          .forward { env with payload := payload } target := by
    have looked : lookupPeer s.registry { env with payload := payload } = lookupPeer s.registry env := rfl
    unfold dispatch
    rw [looked]
    cases kind : env.kind with
    | hello => exact absurd kind relayed
    | error => exact .inl rfl
    | challenge => exact .inl rfl
    | _ =>
      cases lookupPeer s.registry env with
      | error e => exact .inl rfl
      | ok target => exact .inr ⟨target,rfl,rfl⟩
  unfold handleEnvelope
  cases conn.registeredFp with
  | none => exact routed
  | some registered =>
    by_cases spoofed : env.fromFp ≠ registered
    · exact .inl (by simp only [if_pos spoofed])
    · simp only [if_neg spoofed]
      exact routed

theorem view_payload {call call' : ServerCall} (alike : SameButPayload call call') :
    view call (step authenticate s call) = view call' (step authenticate s call') := by
  cases alike with
  | same => rfl
  | payload c sinkOk payload fits decoded fits' decoded' relayed =>
    cases here : s.connections[c]? with
    | none =>
      rw [step_of_absent authenticate s rfl here,step_of_absent authenticate s rfl here]
      rfl
    | some conn =>
      rw [step_of_present authenticate s rfl here,step_of_present authenticate s rfl here]
      simp only [onConnection]
      split
      · simp only [onMessage,if_neg (Nat.not_lt.mpr fits),if_neg (Nat.not_lt.mpr fits'),handleMessage,decoded,decoded']
        rcases handleEnvelope_payload authenticate s c conn payload relayed with same | ⟨target,left,right⟩
        · rw [same]
          rfl
        · rw [left,right]
          exact Prod.ext rfl (setPhase_of_blank rfl c rfl)
      · rfl

/-- Servers that hold the same but for payloads step alike under calls that are the same but
for payloads. -/
theorem view_alike {s s' : Server} {call call' : ServerCall} (same : s.blank = s'.blank) (carried : s.Carried)
    (carried' : s'.Carried) (alike : SameButPayload call call') :
    view call (step authenticate s call) = view call' (step authenticate s' call') := by
  calc view call (step authenticate s call)
      = view call (step authenticate s.blank call) := (view_blank authenticate s carried call).symm
    _ = view call (step authenticate s'.blank call) := by rw [same]
    _ = view call (step authenticate s' call) := view_blank authenticate s' carried' call
    _ = view call' (step authenticate s' call') := view_payload authenticate s' alike

end Blank

/-- What the client behind a connection decodes from a routed message. -/
def readOn (t : Nat) (e : Event Server ServerCall ServerResponse) : Option SignalingEnvelope :=
  match e.call with
  | .routed c _ => if c = t then e.response.wire.head?.bind (fun bytes => (SignalingEnvelope.decode bytes).toOption) else none
  | _ => none

def placedOn (t : Nat) (e : Event Server ServerCall ServerResponse) : Option SignalingEnvelope :=
  e.response.placed.bind fun sent => if sent.1 = t then some sent.2 else none

def readBy (authenticate : Authenticator) (t : Nat) (calls : List ServerCall) : List SignalingEnvelope :=
  (trace (step authenticate) empty calls).filterMap (readOn t)

def placedFor (authenticate : Authenticator) (t : Nat) (calls : List ServerCall) : List SignalingEnvelope :=
  (trace (step authenticate) empty calls).filterMap (placedOn t)

def queueOf (s : Server) (t : Nat) : List SignalingEnvelope := (s.connections[t]?).elim [] Connection.queue

theorem queueOf_update (s : Server) (c t : Nat) {f : Connection → Connection}
    (same : ∀ conn, (f conn).queue = conn.queue) : (s.update c f).queueOf t = s.queueOf t := by
  unfold queueOf
  rw [getElem?_update]
  split
  · cases s.connections[t]? with
    | none => rfl
    | some conn => exact same conn
  · rfl

theorem queueOf_setPhase (s : Server) (c t : Nat) (phase : Phase) : (s.setPhase c phase).queueOf t = s.queueOf t := by
  apply queueOf_update
  intro conn
  rfl

theorem queueOf_enqueue {target : Nat} (here : s.connections[target]? = some conn)
    (env : SignalingEnvelope) (t : Nat) : (s.update target (Connection.enqueue env)).queueOf t =
      s.queueOf t ++ (if target = t then some env else none).toList := by
  unfold queueOf
  rw [getElem?_update]
  by_cases own : target = t
  · subst own
    rw [if_pos rfl,if_pos rfl,here]
    rfl
  · rw [if_neg own,if_neg own,Option.toList_none,List.append_nil]

theorem queueOf_opened (s : Server) (challenge : Vector UInt8 32) (t : Nat) :
    queueOf { s with connections := s.connections ++ [Connection.fresh challenge] } t = s.queueOf t := by
  unfold queueOf
  rcases Nat.lt_trichotomy t s.connections.length with before | rfl | beyond
  · rw [List.getElem?_append_left before]
  · rw [List.getElem?_concat_length,List.getElem?_eq_none (Nat.le_refl _)]
    rfl
  · rw [List.getElem?_eq_none (Nat.le_of_lt beyond),List.getElem?_eq_none]
    rw [List.length_append]
    exact beyond

/-- Only a connection that exists is waited for. -/
theorem target_present (sound : s.Sound) {c target : Nat} (here : s.connections[c]? = some conn)
    (waiting : conn.phase = .forwarding env target ∨ conn.phase = .notifying env target) :
    ∃ peer, s.connections[target]? = some peer := by
  have known := sound.phases c conn here
  rcases waiting with phase | phase
  · rw [PhaseSound,phase] at known
    obtain ⟨peer,found,_⟩ := connection_of_registration known.2.2
    exact ⟨peer,found⟩
  · rw [PhaseSound,phase] at known
    obtain ⟨_,_,_,_,_,reached⟩ := known
    obtain ⟨peer,found,_⟩ := connection_of_registration reached
    exact ⟨peer,found⟩

theorem routed_spec (authenticate : Authenticator) (s : Server) (c : Nat) (sinkOk : Bool) :
    step authenticate s (.routed c sinkOk) = (⟨[],none⟩,s) ∨
      ∃ conn env rest, s.connections[c]? = some conn ∧ conn.queue = env :: rest ∧
        step authenticate s (.routed c sinkOk) = s.onRouted c env rest sinkOk := by
  cases here : s.connections[c]? with
  | none => exact .inl (step_of_absent authenticate s rfl here)
  | some conn =>
    rw [step_of_present authenticate s rfl here]
    simp only [onConnection]
    cases queue : conn.queue with
    | nil => cases conn.phase <;> exact .inl rfl
    | cons env rest =>
      cases conn.phase with
      | running => exact .inr ⟨conn,env,rest,rfl,queue,rfl⟩
      | _ => exact .inl rfl

theorem queueOf_routed (authenticate : Authenticator) (s : Server) (carried : s.Carried) (c : Nat) (sinkOk : Bool)
    (t : Nat) : s.queueOf t = (readOn t (fire (step authenticate) s (.routed c sinkOk))).toList ++
      (step authenticate s (.routed c sinkOk)).2.queueOf t := by
  rcases routed_spec authenticate s c sinkOk with idle | ⟨conn,env,rest,here,queue,routed⟩
  · rw [fire,idle]
    simp [readOn]
  · have valid : env.Valid := (carried c conn here).queued env (queue ▸ List.mem_cons_self)
    rw [fire,routed]
    simp only [readOn,onRouted,wireOf_valid valid,List.head?_cons,Option.bind_some,valid.decoded]
    unfold queueOf
    rw [getElem?_update]
    by_cases own : c = t
    · subst own
      rw [if_pos rfl,if_pos rfl,here]
      exact queue
    · rw [if_neg own,if_neg own]
      rfl

theorem queueOf_step (authenticate : Authenticator) (s : Server) (call : ServerCall) (sound : s.Sound)
    (carried : s.Carried) (t : Nat) :
    s.queueOf t ++ (placedOn t (fire (step authenticate) s call)).toList =
      (readOn t (fire (step authenticate) s call)).toList ++ (step authenticate s call).2.queueOf t := by
  by_cases routed : ∃ c sinkOk, call = .routed c sinkOk
  · obtain ⟨c,sinkOk,rfl⟩ := routed
    have unplaced : placedOn t (fire (step authenticate) s (.routed c sinkOk)) = none := by
      rcases routed_spec authenticate s c sinkOk with idle | ⟨_,_,_,_,_,routed⟩
      · rw [fire,idle]
        rfl
      · rw [fire,routed]
        rfl
    rw [unplaced,Option.toList_none,List.append_nil]
    exact queueOf_routed authenticate s carried c sinkOk t
  · have unread : readOn t (fire (step authenticate) s call) = none := by
      cases call with
      | routed c sinkOk => exact absurd ⟨c,sinkOk,rfl⟩ routed
      | _ => rfl
    rw [unread,Option.toList_none,List.nil_append,fire]
    have move := step_move authenticate s call
    generalize step authenticate s call = outcome at move
    cases move with
    | idle => exact List.append_nil _
    | opened challenge => exact (List.append_nil _).trans (queueOf_opened s challenge t).symm
    | settled _ c f wire keeps after queue lives => exact (List.append_nil _).trans (queueOf_update s c t queue).symm
    | delivered c sinkOk => exact absurd ⟨c,sinkOk,rfl⟩ routed
    | registered c bytes sinkOk conn env registry go =>
      have same := @queueOf_update { s with registry := registry } c t (Connection.register env (continueIf go))
        (fun _ => rfl)
      exact (List.append_nil _).trans same.symm
    | forwarding c => exact (List.append_nil _).trans (queueOf_setPhase s c t _).symm
    | placed _ c conn env target next here waiting =>
      have waits : conn.phase = .forwarding env target ∨ conn.phase = .notifying env target :=
        waiting.imp (fun sent => sent.2.1) (fun sent => sent.2.1)
      obtain ⟨peer,found⟩ := target_present sound here waits
      rw [queueOf_setPhase,queueOf_enqueue found]
      rfl
    | cleaned c => exact (List.append_nil _).trans (queueOf_setPhase { s with registry := _ } c t _).symm

/-- Every run against the state it ends in. -/
structure Journal (authenticate : Authenticator) (history : List (Event Server ServerCall ServerResponse)) (s : Server) :
    Prop where
  recorded : Recorded (history.filterMap (note authenticate)) s
  carried : s.Carried
  ordered : ∀ t, history.filterMap (placedOn t) = history.filterMap (readOn t) ++ s.queueOf t
  sent : ∀ t, ∀ env ∈ history.filterMap (placedOn t),
    (∃ c registered, .sent c env registered ∈ history.filterMap (note authenticate)) ∨
      ∃ sessionId fp, env = makeBye sessionId fp

theorem placed_source (authenticate : Authenticator) {noted : List Note} (recorded : Recorded noted s)
    {call : ServerCall} {t : Nat}
    (placed : placedOn t (fire (step authenticate) s call) = some env) :
    (∃ c registered, .sent c env registered ∈ noted) ∨ ∃ sessionId fp, env = makeBye sessionId fp := by
  unfold placedOn fire at placed
  have move := step_move authenticate s call
  generalize step authenticate s call = outcome at move placed
  cases move with
  | placed _ c conn env' target next here waiting =>
    have same : env' = env := by
      dsimp only [Option.bind_some] at placed
      split at placed
      · exact Option.some.inj placed
      · cases placed
    subst same
    rcases waiting with ⟨_,phase,_⟩ | ⟨_,phase,_⟩
    · exact .inl ⟨c,_,recorded.waiting c conn env' target here phase⟩
    · have known := recorded.sound.phases c conn here
      rw [PhaseSound,phase] at known
      obtain ⟨sessionId,fp,_,_,bye,_⟩ := known
      exact .inr ⟨sessionId,fp,bye⟩
  | _ => cases placed

theorem journal_step (authenticate : Authenticator) (history : List (Event Server ServerCall ServerResponse))
    (s : Server) (call : ServerCall) (journal : Journal authenticate history s) :
    Journal authenticate (history ++ [fire (step authenticate) s call]) (step authenticate s call).2 where
  recorded := by
    rw [filterMap_concat]
    exact recorded_step authenticate _ s call journal.recorded
  carried := carried_step authenticate s call journal.carried
  ordered t := by
    have moved := queueOf_step authenticate s call journal.recorded.sound journal.carried t
    rw [filterMap_concat,filterMap_concat,journal.ordered t,List.append_assoc,moved,List.append_assoc]
  sent t env member := by
    simp only [filterMap_concat,List.mem_append,Option.mem_toList] at member ⊢
    rcases member with earlier | now
    · rcases journal.sent t env earlier with ⟨c,registered,noted⟩ | bye
      · exact .inl ⟨c,registered,.inl noted⟩
      · exact .inr bye
    · rcases placed_source authenticate journal.recorded now with ⟨c,registered,noted⟩ | bye
      · exact .inl ⟨c,registered,.inl noted⟩
      · exact .inr bye

theorem journal_run (authenticate : Authenticator) (calls : List ServerCall) :
    Journal authenticate (trace (step authenticate) empty calls) (final (step authenticate) empty calls) := by
  have initial : Journal authenticate [] empty := by
    refine ⟨recorded_run authenticate [],?_,?_,?_⟩
    · intro c conn here
      simp [empty] at here
    · intro t
      rfl
    · intro t env member
      cases member
  have run := history_invariant (step authenticate) some (fun _ _ => True) (Journal authenticate)
    (fun history s call _ journal => journal_step authenticate history s call journal) [] empty calls initial
    (fun _ _ => trivial)
  rw [List.filterMap_some] at run
  exact run

theorem sameButPayload_encoded (c : Nat) (sinkOk : Bool) (valid : env.Valid)
    (relayed : env.kind ≠ .hello) {payload : Bytes} (fits : payload.length ≤ maxPayloadLen) :
    SameButPayload (.message c (env.header ++ env.payload) sinkOk)
      (.message c ({ env with payload := payload }.header ++ payload) sinkOk) := by
  have valid' : SignalingEnvelope.Valid { env with payload := payload } := ⟨fits,valid.fromFp,valid.toFp⟩
  exact .payload c sinkOk payload valid.fits valid.decoded valid'.fits valid'.decoded relayed

/-- The relay is blind to payloads. Two runs that are the same but for the payloads of envelopes
other than Hello show the same registries, replies, errors and addressed deliveries. What a
client decodes is, in order, what was queued for it, and each of it is exactly what a
connection had sent, or the server's own empty Bye. -/
theorem relay_blind_to_payloads (authenticate : Authenticator) (calls calls' : List ServerCall)
    (alike : List.Forall₂ SameButPayload calls calls') :
    (trace (step authenticate) empty calls).map observe = (trace (step authenticate) empty calls').map observe ∧
    ∀ t, readBy authenticate t calls <+: placedFor authenticate t calls ∧
      ∀ env ∈ placedFor authenticate t calls,
        (∃ c registered, .sent c env registered ∈ notes authenticate calls) ∨
          ∃ sessionId fp, env = makeBye sessionId fp := by
  constructor
  · have nothing : empty.Carried := (journal_run authenticate []).carried
    refine (lockstep (step authenticate) (step authenticate) (fun s s' => s.blank = s'.blank ∧ s.Carried ∧ s'.Carried)
      SameButPayload observe observe ?_ ?_ alike).1
    · rintro s s' call call' ⟨same,carried,carried'⟩ alike
      have seen := view_alike authenticate same carried carried' alike
      refine ⟨⟨congrArg Prod.snd seen,?_,?_⟩,congrArg Prod.fst seen⟩
      · exact carried_step authenticate s call carried
      · exact carried_step authenticate s' call' carried'
    · exact ⟨rfl,nothing,nothing⟩
  · intro t
    have journal := journal_run authenticate calls
    refine ⟨?_,journal.sent t⟩
    rw [readBy,placedFor,journal.ordered t]
    exact List.prefix_append _ _

namespace Transparent

/-- The offer of the second connection to the first, with a payload, on to the first client. -/
def offered (payload : Bytes) : List ServerCall :=
  opens ++ [sends 0 (envelope .hello 1 'a' '0'),sends 1 (envelope .hello 1 'b' '0'),
    sends 1 { envelope .offer 1 'b' 'a' with payload := payload },.trySend 1,.routed 0 true]

theorem offered_alike : List.Forall₂ SameButPayload (offered []) (offered [1,2,3]) := by
  have offers := sameButPayload_encoded 1 true (envelope_valid .offer 1 (show validateFp (fpOf 'b') = .ok () by decide)
    (show validateFp (fpOf 'a') = .ok () by decide)) (by decide) (show [1,2,3].length ≤ maxPayloadLen by decide)
  exact .cons (.same _) (.cons (.same _) (.cons (.same _) (.cons (.same _) (.cons offers (.cons (.same _)
    (.cons (.same _) .nil))))))

end Transparent

open Server.Transparent

/-- An offer with a payload and one without are relayed alike. -/
theorem relay_blind_to_offer :
    (trace (step acceptAll) empty (offered [])).map observe =
      (trace (step acceptAll) empty (offered [1,2,3])).map observe :=
  (relay_blind_to_payloads acceptAll (offered []) (offered [1,2,3]) offered_alike).1

end Server

end Streamhaul
