import Streamhaul.SignalingInvariant

/-! Whole runs of the signaling server: who is behind a relayed envelope, and which
session it reaches. -/
namespace Streamhaul.Server

open Machine

/-- What a run remembers: each Hello the authenticator accepted and that registered its
connection, and each envelope sent for relaying with whether its connection was registered. -/
inductive Note where
  | accepted (c : Nat) (sessionId : SessionId) (fp : Text)
  | sent (c : Nat) (env : SignalingEnvelope) (registered : Bool)
  deriving DecidableEq

def note (authenticate : Authenticator) (e : Event Server ServerCall ServerResponse) : Option Note :=
  match e.call with
  | .message c bytes _ =>
    match e.before.received c bytes with
    | none => none
    | some (conn,env) =>
      if env.kind.relayed then some (.sent c env conn.registeredFp.isSome)
      else if env.kind = .hello ∧ conn.registeredFp = none ∧
          authenticate ⟨env.fromFp,env.sessionId,conn.challenge,env.payload⟩ = true ∧
          e.after.registration c = some (env.sessionId,env.fromFp) then
        some (.accepted c env.sessionId env.fromFp)
      else none
  | _ => none

def notes (authenticate : Authenticator) (calls : List ServerCall) : List Note :=
  (trace (step authenticate) empty calls).filterMap (note authenticate)

theorem registeredFp_of_registration {conn : Connection} {sessionId : SessionId} {fp : Text}
    (known : conn.registration = some (sessionId,fp)) : conn.registeredFp = some fp := by
  unfold Connection.registration at known
  cases session : conn.registeredSession <;> cases named : conn.registeredFp <;> simp_all

section Step

variable (authenticate : Authenticator) (s : Server) (call : ServerCall) {env : SignalingEnvelope} {d : Nat}

theorem note_of_registered {c : Nat} {bytes : Bytes} {sinkOk : Bool} {conn : Connection}
    {response : ServerResponse} {s' : Server} (here : s.received c bytes = some (conn,env)) (hello : env.kind = .hello)
    (first : conn.registeredFp = none)
    (accepted : authenticate ⟨env.fromFp,env.sessionId,conn.challenge,env.payload⟩ = true)
    (now : s'.registration c = some (env.sessionId,env.fromFp)) :
    note authenticate ⟨s,.message c bytes sinkOk,response,s'⟩ = some (.accepted c env.sessionId env.fromFp) := by
  simp [note,here,hello,MessageKind.relayed,first,accepted,now]

theorem registration_step (d : Nat) :
    (step authenticate s call).2.registration d = s.registration d ∨
      s.registration d = none ∧ ∃ sessionId fp,
        (step authenticate s call).2.registration d = some (sessionId,fp) ∧
        note authenticate (fire (step authenticate) s call) = some (.accepted d sessionId fp) := by
  unfold fire
  have move := step_move authenticate s call
  generalize step authenticate s call = outcome at move
  cases move with
  | idle => exact .inl rfl
  | opened challenge => exact .inl (registration_opened s challenge d)
  | settled _ c f wire keeps after queue lives => exact .inl (registration_update s c d keeps)
  | delivered c sinkOk conn env rest => exact .inl (registration_update s c d (keeps_routed rest _))
  | registered c bytes sinkOk conn env registry go wire here hello first accepted done =>
    have found := (received_eq_some here).1
    have now := registration_register s registry c d env (continueIf go) found
    by_cases same : c = d
    · subst same
      rw [if_pos rfl] at now
      refine .inr ⟨registration_none found first,env.sessionId,env.fromFp,now,?_⟩
      exact note_of_registered authenticate s here hello first accepted now
    · rw [if_neg same] at now
      exact .inl now
  | forwarding c => exact .inl (registration_update s c d (keeps_setPhase _))
  | placed _ c conn env target next here waiting =>
    have phase := registration_update (s.update target (Connection.enqueue env)) c d (keeps_setPhase next)
    exact .inl (phase.trans (registration_update s target d (keeps_enqueue env)))
  | cleaned c => exact .inl (registration_update _ c d (keeps_setPhase _))

theorem registration_step_mono {identity : SessionId × Text} (known : s.registration d = some identity) :
    (step authenticate s call).2.registration d = some identity := by
  rcases registration_step authenticate s call d with same | ⟨unknown,_⟩
  · exact same.trans known
  · rw [unknown] at known
    cases known

/-- What was checked when a Hello has been accepted, and the name it leaves. -/
theorem accepted_received {sessionId : SessionId} {fp : Text}
    (noted : note authenticate (fire (step authenticate) s call) = some (.accepted d sessionId fp)) :
    ∃ bytes sinkOk conn env, call = .message d bytes sinkOk ∧ s.received d bytes = some (conn,env) ∧
      env.kind = .hello ∧ conn.registeredFp = none ∧
      authenticate ⟨env.fromFp,env.sessionId,conn.challenge,env.payload⟩ = true ∧
      env.sessionId = sessionId ∧ env.fromFp = fp ∧
      (step authenticate s call).2.registration d = some (sessionId,fp) := by
  unfold note fire at noted
  cases call with
  | message c bytes sinkOk =>
    dsimp only at noted
    split at noted
    · cases noted
    · next conn env here =>
      split at noted
      · cases noted
      · split at noted
        · next checked =>
          cases noted
          obtain ⟨hello,first,accepted,named⟩ := checked
          exact ⟨bytes,sinkOk,conn,env,rfl,here,hello,first,accepted,rfl,rfl,named⟩
        · cases noted
  | _ => cases noted

theorem registration_of_note {sessionId : SessionId} {fp : Text}
    (noted : note authenticate (fire (step authenticate) s call) = some (.accepted d sessionId fp)) :
    (step authenticate s call).2.registration d = some (sessionId,fp) := by
  obtain ⟨_,_,_,_,_,_,_,_,_,_,_,named⟩ := accepted_received authenticate s call noted
  exact named

theorem registration_of_note_sent (sound : s.Sound) {c : Nat}
    (noted : note authenticate (fire (step authenticate) s call) = some (.sent c env true)) :
    (s.registration c).isSome = true := by
  unfold note fire at noted
  cases call with
  | message d bytes sinkOk =>
    dsimp only at noted
    split at noted
    · cases noted
    · next conn env' here =>
      split at noted
      · simp only [Option.some.injEq,Note.sent.injEq] at noted
        obtain ⟨rfl,rfl,registered⟩ := noted
        rw [registration_of_received sound here]
        exact registered
      · split at noted
        · cases noted
        · cases noted
  | _ => cases noted

theorem forwarding_step {conn : Connection} {target : Nat}
    (here : (step authenticate s call).2.connections[d]? = some conn) (phase : conn.phase = .forwarding env target) :
    (∃ old, s.connections[d]? = some old ∧ old.phase = .forwarding env target ∧ old.registeredFp = conn.registeredFp) ∨
      note authenticate (fire (step authenticate) s call) = some (.sent d env conn.registeredFp.isSome) := by
  have waited : s.connections[d]? = some conn → ∃ old, s.connections[d]? = some old ∧
      old.phase = .forwarding env target ∧ old.registeredFp = conn.registeredFp :=
    fun found => ⟨conn,found,phase,rfl⟩
  unfold fire
  have move := step_move authenticate s call
  generalize step authenticate s call = outcome at move here
  cases move with
  | idle => exact .inl (waited here)
  | opened challenge =>
    rcases getElem?_opened here with found | rfl
    · exact .inl (waited found)
    · cases phase
  | settled _ c f wire keeps after queue lives =>
    rcases getElem?_update_some here with found | ⟨rfl,old,found,rfl⟩
    · exact .inl (waited found)
    · exact absurd phase (after old).not_forwarding
  | delivered c sinkOk old env' rest taken running queue =>
    rcases getElem?_update_some here with found | ⟨rfl,same,found,rfl⟩
    · exact .inl (waited found)
    · exact absurd phase (Phase.settled_continueIf _).not_forwarding
  | registered c bytes sinkOk old env' registry go wire taken hello first accepted done =>
    rcases getElem?_update_some here with found | ⟨rfl,old,found,rfl⟩
    · exact .inl (waited found)
    · exact absurd phase (Phase.settled_continueIf go).not_forwarding
  | forwarding c bytes sinkOk old env' target' taken relayed bound found =>
    rcases getElem?_update_some here with unchanged | ⟨rfl,same,unchanged,rfl⟩
    · exact .inl (waited unchanged)
    · cases phase
      cases (received_eq_some taken).1.symm.trans unchanged
      apply Or.inr
      simp [note,taken,relayed]
  | placed _ c old env' target' next taken waiting =>
    rcases getElem?_update_some here with found | ⟨rfl,same,found,rfl⟩
    · rcases getElem?_update_some found with unchanged | ⟨rfl,queued,unchanged,rfl⟩
      · exact .inl (waited unchanged)
      · exact .inl ⟨queued,unchanged,phase,rfl⟩
    · exact absurd phase (settled_of_waiting waiting).not_forwarding
  | cleaned c pick old sessionId fp taken leaving identity =>
    rcases getElem?_update_some here with found | ⟨rfl,same,found,rfl⟩
    · exact .inl (waited found)
    · dsimp only at phase
      split at phase
      · cases phase
      · cases phase

theorem placed_step {c target : Nat} (own : call.connection = some c)
    (placed : (step authenticate s call).1.placed = some (target,env)) : ∃ conn, s.connections[c]? = some conn ∧
      (call = .trySend c ∧ conn.phase = .forwarding env target ∨
        call = .notify c ∧ conn.phase = .notifying env target) := by
  have move := step_move authenticate s call
  generalize step authenticate s call = outcome at move placed
  cases move with
  | placed _ d conn env' target' next here waiting =>
    cases placed
    rcases waiting with ⟨rfl,phase,_⟩ | ⟨rfl,phase,_⟩
    · cases own
      exact ⟨conn,here,.inl ⟨rfl,phase⟩⟩
    · cases own
      exact ⟨conn,here,.inr ⟨rfl,phase⟩⟩
  | _ => cases placed

end Step

/-- The notes of a run against the state it ends in. -/
structure Recorded (noted : List Note) (s : Server) : Prop where
  sound : s.Sound
  accepted : ∀ c sessionId fp, .accepted c sessionId fp ∈ noted ↔ s.registration c = some (sessionId,fp)
  sent : ∀ c env, .sent c env true ∈ noted → (s.registration c).isSome = true
  waiting : ∀ (c : Nat) conn env target, s.connections[c]? = some conn → conn.phase = .forwarding env target →
    .sent c env conn.registeredFp.isSome ∈ noted

theorem recorded_step (authenticate : Authenticator) (noted : List Note) (s : Server) (call : ServerCall)
    (recorded : Recorded noted s) :
    Recorded (noted ++ (note authenticate (fire (step authenticate) s call)).toList) (step authenticate s call).2 where
  sound := sound_step authenticate s call recorded.sound
  accepted c sessionId fp := by
    rw [List.mem_append,Option.mem_toList,recorded.accepted]
    constructor
    · rintro (known | noted)
      · exact registration_step_mono authenticate s call known
      · exact registration_of_note authenticate s call noted
    · intro now
      rcases registration_step authenticate s call c with same | ⟨_,sessionId',fp',now',noted⟩
      · exact .inl (same.symm.trans now)
      · cases now'.symm.trans now
        exact .inr noted
  sent c env member := by
    have known : (s.registration c).isSome = true := by
      rcases List.mem_append.mp member with earlier | noted
      · exact recorded.sent c env earlier
      · exact registration_of_note_sent authenticate s call recorded.sound (Option.mem_toList.mp noted)
    obtain ⟨identity,known⟩ := Option.isSome_iff_exists.mp known
    rw [registration_step_mono authenticate s call known]
    rfl
  waiting c conn env target here phase := by
    apply List.mem_append.mpr
    rcases forwarding_step authenticate s call here phase with ⟨old,found,before,same⟩ | noted
    · rw [← same]
      exact .inl (recorded.waiting c old env target found before)
    · exact .inr (Option.mem_toList.mpr noted)

theorem recorded_run (authenticate : Authenticator) (calls : List ServerCall) :
    Recorded (notes authenticate calls) (final (step authenticate) empty calls) := by
  have initial : Recorded [] empty := by
    refine ⟨sound_empty,?_,?_,?_⟩
    · intro c sessionId fp
      simp [empty,registration]
    · intro c env member
      cases member
    · intro c conn env target here
      simp [empty] at here
  have run := history_invariant (step authenticate) (note authenticate) (fun _ _ => True) Recorded
    (fun noted s call _ recorded => recorded_step authenticate noted s call recorded) [] empty calls initial
    (fun _ _ => trivial)
  simpa [notes] using run

namespace Transparent

def acceptAll : Authenticator := fun _ => true

def fpOf (digit : Char) : Text := List.replicate 64 digit

def sessionOf (b : UInt8) : SessionId := Vector.replicate 16 b

def envelope (kind : MessageKind) (session : UInt8) (sender recipient : Char) : SignalingEnvelope :=
  ⟨kind,sessionOf session,fpOf sender,fpOf recipient,[]⟩

def sends (c : Nat) (env : SignalingEnvelope) : ServerCall := .message c (env.header ++ env.payload) true

/-- A message call with the decoding done. -/
def take (s : Server) (c : Nat) (env : SignalingEnvelope) : ServerResponse × Server :=
  match s.connections[c]? with
  | none => (⟨[],none⟩,s)
  | some conn =>
    if conn.phase = .running then s.onDispatch c conn true (handleEnvelope acceptAll s.registry c conn env)
    else (⟨[],none⟩,s)

theorem step_sends (s : Server) (c : Nat) {env : SignalingEnvelope} (valid : env.Valid) :
    step acceptAll s (sends c env) = take s c env := by
  have fits := Nat.not_lt.mpr valid.fits
  unfold take
  cases here : s.connections[c]? with
  | none => simp only [sends,step,here]
  | some conn => simp only [sends,step,here,onConnection,onMessage,if_neg fits,handleMessage,valid.decoded]

theorem final_sends (s : Server) (c : Nat) {env : SignalingEnvelope} (valid : env.Valid) (rest : List ServerCall) :
    final (step acceptAll) s (sends c env :: rest) = final (step acceptAll) (take s c env).2 rest := by
  rw [final,step_sends s c valid]

theorem envelope_valid (kind : MessageKind) (session : UInt8) {sender recipient : Char}
    (first : validateFp (fpOf sender) = .ok ()) (second : validateFp (fpOf recipient) = .ok ()) :
    (envelope kind session sender recipient).Valid := ⟨by simp [envelope],first,second⟩

def opens : List ServerCall := [.accept (Vector.replicate 32 0) true,.accept (Vector.replicate 32 1) true]

/-- The first connection registers as `a`; the second never says Hello and makes an offer as `b`. -/
def impostor : List ServerCall :=
  opens ++ [sends 0 (envelope .hello 1 'a' '0'),sends 1 (envelope .offer 1 'b' 'a')]

/-- The first connection registers as `a` in the given session; the second registers as `b` in
session 1 and makes an offer in the given session. -/
def offering (session : UInt8) : List ServerCall :=
  opens ++ [sends 0 (envelope .hello session 'a' '0'),sends 1 (envelope .hello 1 'b' '0'),
    sends 1 (envelope .offer session 'b' 'a')]

theorem final_impostor : final (step acceptAll) empty impostor =
    (take (take (final (step acceptAll) empty opens) 0 (envelope .hello 1 'a' '0')).2 1 (envelope .offer 1 'b' 'a')).2 := by
  rw [impostor,final_append,final_sends _ _ (envelope_valid .hello 1 (by decide) (by decide)),
    final_sends _ _ (envelope_valid .offer 1 (by decide) (by decide)),final]

theorem final_offering (session : UInt8) : final (step acceptAll) empty (offering session) =
    (take (take (take (final (step acceptAll) empty opens) 0 (envelope .hello session 'a' '0')).2 1
      (envelope .hello 1 'b' '0')).2 1 (envelope .offer session 'b' 'a')).2 := by
  rw [offering,final_append,final_sends _ _ (envelope_valid .hello session (by decide) (by decide)),
    final_sends _ _ (envelope_valid .hello 1 (by decide) (by decide)),
    final_sends _ _ (envelope_valid .offer session (by decide) (by decide)),final]

end Transparent

open Server.Transparent

/-- An envelope that a connection has forwarded to a peer was sent by that connection, and its
sender fingerprint is one the connection had authenticated as exactly when the connection was
registered as it sent the envelope. -/
theorem forwarded_sender_authentic_iff (authenticate : Authenticator) (earlier : List ServerCall) (c target : Nat)
    (env : SignalingEnvelope)
    (placed : (step authenticate (final (step authenticate) empty earlier) (.trySend c)).1.placed =
      some (target,env)) :
    env.kind.relayed = true ∧
    (final (step authenticate) empty earlier).registration target = some (env.sessionId,env.toFp) ∧
    (.sent c env true ∈ notes authenticate earlier ∨ .sent c env false ∈ notes authenticate earlier) ∧
    ((∃ sessionId, .accepted c sessionId env.fromFp ∈ notes authenticate earlier) ↔
      .sent c env true ∈ notes authenticate earlier) := by
  have recorded := recorded_run authenticate earlier
  obtain ⟨conn,here,⟨_,phase⟩ | ⟨other,_⟩⟩ := placed_step authenticate _ _ rfl placed
  · have waited := recorded.waiting c conn env target here phase
    have known := recorded.sound.phases c conn here
    rw [PhaseSound,phase] at known
    obtain ⟨relayed,bound,reached⟩ := known
    have own : (final (step authenticate) empty earlier).registration c = conn.registration := by
      simp [registration,here]
    refine ⟨relayed,reached,?_,?_⟩
    · cases flag : conn.registeredFp.isSome with
      | true => exact .inl (flag ▸ waited)
      | false => exact .inr (flag ▸ waited)
    · simp only [recorded.accepted,own]
      constructor
      · rintro ⟨sessionId,identity⟩
        rw [registeredFp_of_registration identity] at waited
        exact waited
      · intro sent
        obtain ⟨⟨sessionId,fp⟩,identity⟩ := Option.isSome_iff_exists.mp (recorded.sent c env sent)
        rw [own] at identity
        refine ⟨sessionId,?_⟩
        rw [bound fp (registeredFp_of_registration identity)]
        exact identity
  · cases other

theorem forwarded_sender_authentic_offer :
    (∃ sessionId, .accepted 1 sessionId (fpOf 'b') ∈ notes acceptAll (offering 1)) ∧
      .sent 1 (envelope .offer 1 'b' 'a') true ∈ notes acceptAll (offering 1) := by
  have accepted : ∃ sessionId, .accepted 1 sessionId (fpOf 'b') ∈ notes acceptAll (offering 1) := by
    refine ⟨sessionOf 1,((recorded_run acceptAll (offering 1)).accepted 1 (sessionOf 1) (fpOf 'b')).mpr ?_⟩
    rw [final_offering]
    decide +kernel
  exact ⟨accepted,(forwarded_sender_authentic_iff acceptAll (offering 1) 1 0 (envelope .offer 1 'b' 'a')
    (by rw [final_offering]; decide +kernel)).2.2.2.mp accepted⟩

/-- A connection that never registered has its offer put on the queue of a registered peer. -/
theorem offer_forwarded_without_hello :
    (step acceptAll (final (step acceptAll) empty impostor) (.trySend 1)).1.placed =
      some (0,envelope .offer 1 'b' 'a') ∧
    (final (step acceptAll) empty impostor).registration 0 = some (sessionOf 1,fpOf 'a') ∧
    ∀ sessionId fp, .accepted 1 sessionId fp ∉ notes acceptAll impostor := by
  have unregistered : (final (step acceptAll) empty impostor).registration 1 = none := by
    rw [final_impostor]
    decide +kernel
  refine ⟨?_,?_,fun sessionId fp => ?_⟩
  · rw [final_impostor]
    decide +kernel
  · rw [final_impostor]
    decide +kernel
  · rw [(recorded_run acceptAll impostor).accepted,unregistered]
    simp

/-- What a registered connection has placed on a queue, its own envelope or the notice of its
leaving, reaches a peer of its session exactly when the envelope carries that session. -/
theorem placed_within_session_iff (authenticate : Authenticator) (earlier : List ServerCall) (call : ServerCall)
    (c target : Nat) (env : SignalingEnvelope) (sessionId : SessionId) (fp : Text) (own : call.connection = some c)
    (registered : (final (step authenticate) empty earlier).registration c = some (sessionId,fp))
    (placed : (step authenticate (final (step authenticate) empty earlier) call).1.placed = some (target,env)) :
    (.sent c env true ∈ notes authenticate earlier ∨ env = makeBye sessionId fp) ∧
    ∃ reached fp', (final (step authenticate) empty earlier).registration target = some (reached,fp') ∧
      (reached = sessionId ↔ env.sessionId = sessionId) := by
  have recorded := recorded_run authenticate earlier
  obtain ⟨conn,here,⟨_,phase⟩ | ⟨_,phase⟩⟩ := placed_step authenticate _ _ own placed
  · have known := recorded.sound.phases c conn here
    have sent := recorded.waiting c conn env target here phase
    rw [PhaseSound,phase] at known
    simp only [registration,here,Option.bind_some] at registered
    rw [registeredFp_of_registration registered] at sent
    exact ⟨.inl sent,env.sessionId,env.toFp,known.2.2,Iff.rfl⟩
  · have known := recorded.sound.phases c conn here
    rw [PhaseSound,phase] at known
    obtain ⟨own,fp',other,identity,rfl,reached⟩ := known
    simp only [registration,here,Option.bind_some] at registered
    cases identity.symm.trans registered
    exact ⟨.inr rfl,sessionId,other,reached,Iff.rfl⟩

theorem placed_within_session_offer :
    .sent 1 (envelope .offer 1 'b' 'a') true ∈ notes acceptAll (offering 1) ∧
    ∃ fp, (final (step acceptAll) empty (offering 1)).registration 0 = some (sessionOf 1,fp) := by
  obtain ⟨sent | other,reached,fp,here,within⟩ := placed_within_session_iff acceptAll (offering 1) (.trySend 1) 1 0
    (envelope .offer 1 'b' 'a') (sessionOf 1) (fpOf 'b') rfl (by rw [final_offering]; decide +kernel)
    (by rw [final_offering]; decide +kernel)
  · obtain rfl := within.mpr rfl
    exact ⟨sent,fp,here⟩
  · cases congrArg SignalingEnvelope.kind other

/-- A connection registered in session 1 has its offer put on the queue of a peer that is
registered in session 2. -/
theorem offer_crosses_sessions :
    (step acceptAll (final (step acceptAll) empty (offering 2)) (.trySend 1)).1.placed =
      some (0,envelope .offer 2 'b' 'a') ∧
    (final (step acceptAll) empty (offering 2)).registration 1 = some (sessionOf 1,fpOf 'b') ∧
    (final (step acceptAll) empty (offering 2)).registration 0 = some (sessionOf 2,fpOf 'a') ∧
    sessionOf 1 ≠ sessionOf 2 := by
  rw [final_offering]
  decide +kernel

end Streamhaul.Server
