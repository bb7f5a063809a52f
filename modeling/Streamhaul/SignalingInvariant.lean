import Streamhaul.SignalingMoves

/-! The invariant of the signaling server: every registry entry and every peer a waiting
connection has looked up is a connection registered under exactly that session and
fingerprint, and a registered connection only waits to forward its own envelopes. -/
namespace Streamhaul.Server

theorem getElem?_update (s : Server) (c d : Nat) (f : Connection → Connection) :
    (s.update c f).connections[d]? = if c = d then (s.connections[d]?).map f else s.connections[d]? := by
  simp only [update,List.getElem?_modify]
  split <;> simp

variable {c : Nat} {conn : Connection} {env : SignalingEnvelope} {f : Connection → Connection} {s : Server}

theorem getElem?_update_some {c d : Nat} (here : (s.update c f).connections[d]? = some conn) :
    s.connections[d]? = some conn ∨ c = d ∧ ∃ old, s.connections[d]? = some old ∧ conn = f old := by
  rw [getElem?_update] at here
  split at here
  · next same =>
    obtain ⟨old,found,rfl⟩ := Option.map_eq_some_iff.mp here
    exact .inr ⟨same,old,found,rfl⟩
  · exact .inl here

theorem getElem?_opened {challenge : Vector UInt8 32} {d : Nat}
    (here : (s.connections ++ [Connection.fresh challenge])[d]? = some conn) :
    s.connections[d]? = some conn ∨ conn = Connection.fresh challenge := by
  rcases Nat.lt_or_ge d s.connections.length with before | beyond
  · rw [List.getElem?_append_left before] at here
    exact .inl here
  · rw [List.getElem?_append_right beyond] at here
    exact .inr (List.mem_singleton.mp (List.mem_of_getElem? here))

theorem registration_update (s : Server) (c d : Nat) (keeps : Connection.Keeps f) :
    (s.update c f).registration d = s.registration d := by
  unfold registration
  rw [getElem?_update]
  split
  · cases s.connections[d]? with
    | none => rfl
    | some conn => simp [Connection.registration,(keeps conn).1,(keeps conn).2]
  · rfl

theorem keeps_setPhase (phase : Phase) : Connection.Keeps (fun conn => { conn with phase := phase }) :=
  fun _ => ⟨rfl,rfl⟩

theorem keeps_enqueue (env : SignalingEnvelope) : Connection.Keeps (Connection.enqueue env) := fun _ => ⟨rfl,rfl⟩

/-- What delivering a queued envelope does to its connection. -/
theorem keeps_routed (rest : List SignalingEnvelope) (phase : Phase) :
    Connection.Keeps (fun conn => { conn with queue := rest, phase := phase }) := fun _ => ⟨rfl,rfl⟩

/-- A message is taken from a running connection, if it is of legal size and decodes. -/
theorem received_eq_some {bytes : Bytes} (here : s.received c bytes = some (conn,env)) :
    s.connections[c]? = some conn ∧ conn.phase = .running ∧ SignalingEnvelope.decode bytes = .ok env ∧
      bytes.length ≤ maxWsMessageSize := by
  unfold received at here
  split at here
  · next found decoded =>
    split at here
    · next ready =>
      cases here
      exact ⟨found,ready.1,decoded,ready.2⟩
    · cases here
  · cases here

def Paired (conn : Connection) : Prop := conn.registeredFp.isSome = conn.registeredSession.isSome

/-- What a waiting connection still knows about the peer it looked up. -/
def PhaseSound (s : Server) (conn : Connection) : Prop :=
  match conn.phase with
  | .forwarding env target =>
    env.kind.relayed = true ∧ (∀ fp, conn.registeredFp = some fp → env.fromFp = fp) ∧
      s.registration target = some (env.sessionId,env.toFp)
  | .notifying bye target => ∃ sessionId fp other, conn.registration = some (sessionId,fp) ∧
      bye = makeBye sessionId fp ∧ s.registration target = some (sessionId,other)
  | _ => True

structure Sound (s : Server) : Prop where
  paired : ∀ (c : Nat) conn, s.connections[c]? = some conn → Paired conn
  phases : ∀ (c : Nat) conn, s.connections[c]? = some conn → PhaseSound s conn
  entries : ∀ sessionId fp t, s.registry.lookup sessionId fp = some t → s.registration t = some (sessionId,fp)

theorem phaseSound_of_settled (s : Server) (settled : conn.phase.Settled) : PhaseSound s conn := by
  unfold PhaseSound
  rcases settled with phase | phase | phase <;> rw [phase] <;> trivial

theorem phaseSound_mono {s s' : Server} {conn conn' : Connection} (sound : PhaseSound s conn)
    (grows : ∀ c identity, s.registration c = some identity → s'.registration c = some identity)
    (fp : conn'.registeredFp = conn.registeredFp) (session : conn'.registeredSession = conn.registeredSession)
    (phase : conn'.phase = conn.phase) : PhaseSound s' conn' := by
  have identity : conn'.registration = conn.registration := by simp [Connection.registration,fp,session]
  unfold PhaseSound at sound ⊢
  rw [phase,fp,identity]
  cases here : conn.phase with
  | forwarding env target =>
    rw [here] at sound
    exact ⟨sound.1,sound.2.1,grows _ _ sound.2.2⟩
  | notifying bye target =>
    rw [here] at sound
    obtain ⟨sessionId,fp',other,own,made,reached⟩ := sound
    exact ⟨sessionId,fp',other,own,made,grows _ _ reached⟩
  | running => trivial
  | exiting => trivial
  | ended => trivial

theorem registration_of_received (sound : s.Sound) {bytes : Bytes} (here : s.received c bytes = some (conn,env)) :
    (s.registration c).isSome = conn.registeredFp.isSome := by
  have found := (received_eq_some here).1
  have paired := sound.paired c conn found
  unfold Paired at paired
  simp only [registration,found,Option.bind_some,Connection.registration]
  cases session : conn.registeredSession <;> cases fp : conn.registeredFp <;> simp [session,fp] at paired ⊢

theorem registration_register (s : Server) (registry : Registry) (c d : Nat) (env : SignalingEnvelope) (phase : Phase)
    (here : s.connections[c]? = some conn) :
    ({ s with registry := registry }.update c (Connection.register env phase)).registration d =
      if c = d then some (env.sessionId,env.fromFp) else s.registration d := by
  unfold registration
  rw [getElem?_update]
  split
  · next same =>
    subst same
    simp [here,Connection.registration,Connection.register]
  · rfl

theorem registration_opened (s : Server) (challenge : Vector UInt8 32) (d : Nat) :
    { s with connections := s.connections ++ [Connection.fresh challenge] : Server }.registration d =
      s.registration d := by
  unfold registration
  rcases Nat.lt_trichotomy d s.connections.length with before | last | beyond
  · rw [List.getElem?_append_left before]
  · simp [last,Connection.fresh,Connection.registration]
  · rw [List.getElem?_eq_none (by simp; omega),List.getElem?_eq_none (by omega)]

theorem Sound.withRegistry (sound : s.Sound) (registry : Registry)
    (fewer : ∀ sessionId fp t, registry.lookup sessionId fp = some t → s.registry.lookup sessionId fp = some t) :
    { s with registry := registry : Server }.Sound where
  paired := sound.paired
  phases := sound.phases
  entries sessionId fp t found := sound.entries sessionId fp t (fewer sessionId fp t found)

/-- A change of one connection that keeps its registration only has to answer for the new phase. -/
theorem Sound.update (sound : s.Sound) (c : Nat) (keeps : Connection.Keeps f)
    (phase : ∀ conn, s.connections[c]? = some conn → PhaseSound s (f conn)) : (s.update c f).Sound := by
  have grows : ∀ d identity, s.registration d = some identity → (s.update c f).registration d = some identity := by
    intro d identity known
    rw [registration_update s c d keeps]
    exact known
  refine ⟨fun d conn here => ?_,fun d conn here => ?_,fun sessionId fp t found => ?_⟩
  · rcases getElem?_update_some here with same | ⟨rfl,old,found,rfl⟩
    · exact sound.paired d conn same
    · have paired := sound.paired c old found
      unfold Paired at paired ⊢
      rw [(keeps old).1,(keeps old).2]
      exact paired
  · rcases getElem?_update_some here with same | ⟨rfl,old,found,rfl⟩
    · exact phaseSound_mono (sound.phases d conn same) grows rfl rfl rfl
    · exact phaseSound_mono (phase old found) grows rfl rfl rfl
  · exact grows t _ (sound.entries sessionId fp t found)

theorem Sound.opened (sound : s.Sound) (challenge : Vector UInt8 32) :
    { s with connections := s.connections ++ [Connection.fresh challenge] : Server }.Sound := by
  refine ⟨fun d conn here => ?_,fun d conn here => ?_,fun sessionId fp t found => ?_⟩
  · rcases getElem?_opened here with same | rfl
    · exact sound.paired d conn same
    · rfl
  · rcases getElem?_opened here with same | rfl
    · apply phaseSound_mono (sound.phases d conn same) _ rfl rfl rfl
      intro c identity known
      rw [registration_opened]
      exact known
    · trivial
  · rw [registration_opened]
    exact sound.entries sessionId fp t found

theorem registration_none (here : s.connections[c]? = some conn)
    (first : conn.registeredFp = none) : s.registration c = none := by
  simp [registration,here,Connection.registration,first]

theorem registration_register_mono (registry : Registry) (env : SignalingEnvelope) (phase : Phase)
    (here : s.connections[c]? = some conn) (first : conn.registeredFp = none) (d : Nat)
    (identity : SessionId × Text) (known : s.registration d = some identity) :
    ({ s with registry := registry }.update c (Connection.register env phase)).registration d = some identity := by
  have other : c ≠ d := by
    rintro rfl
    rw [registration_none here first] at known
    cases known
  rw [registration_register s registry c d env phase here,if_neg other]
  exact known

theorem Sound.registered (sound : s.Sound) {registry : Registry}
    {phase : Phase} (here : s.connections[c]? = some conn) (first : conn.registeredFp = none)
    (settled : phase.Settled) (done : s.registry.register env.sessionId env.fromFp c = .ok registry) :
    ({ s with registry := registry }.update c (Connection.register env phase)).Sound := by
  have grows := registration_register_mono registry env phase here first
  refine ⟨fun d conn here => ?_,fun d conn here => ?_,fun sessionId fp t found => ?_⟩
  · rcases getElem?_update_some here with same | ⟨_,old,_,rfl⟩
    · exact sound.paired d conn same
    · rfl
  · rcases getElem?_update_some here with same | ⟨_,old,_,rfl⟩
    · exact phaseSound_mono (sound.phases d conn same) grows rfl rfl rfl
    · exact phaseSound_of_settled _ settled
  · have looked := Registry.lookup_register done sessionId fp
    rw [show registry.lookup sessionId fp = some t from found] at looked
    split at looked
    · next same =>
      cases looked
      rw [registration_register s registry c c env phase here,if_pos rfl,same.1,same.2]
    · exact grows t _ (sound.entries sessionId fp t looked.symm)

theorem Sound.forwarding (sound : s.Sound) {target : Nat}
    (here : s.connections[c]? = some conn) (relayed : env.kind.relayed = true)
    (bound : ∀ fp, conn.registeredFp = some fp → env.fromFp = fp)
    (found : s.registry.lookup env.sessionId env.toFp = some target) :
    (s.setPhase c (.forwarding env target)).Sound := by
  apply sound.update c (keeps_setPhase _)
  intro conn' same
  cases here.symm.trans same
  exact ⟨relayed,bound,sound.entries _ _ _ found⟩

theorem Sound.placed (sound : s.Sound) (c target : Nat) (env : SignalingEnvelope) {next : Phase}
    (settled : next.Settled) : ((s.update target (Connection.enqueue env)).setPhase c next).Sound := by
  have queued : (s.update target (Connection.enqueue env)).Sound := by
    apply sound.update target (keeps_enqueue env)
    intro conn here
    exact phaseSound_mono (sound.phases target conn here) (fun _ _ known => known) rfl rfl rfl
  apply queued.update c (keeps_setPhase next)
  intro conn _
  exact phaseSound_of_settled _ settled

theorem Sound.cleaned (sound : s.Sound) (pick : Nat)
    {sessionId : SessionId} {fp : Text} (here : s.connections[c]? = some conn)
    (identity : conn.registration = some (sessionId,fp)) :
    ({ s with registry := (s.registry.unregister sessionId fp pick).2 }.setPhase c
      (match (s.registry.unregister sessionId fp pick).1 with
        | none => .ended
        | some target => .notifying (makeBye sessionId fp) target)).Sound := by
  obtain ⟨fewer,picked⟩ := Registry.unregister_spec s.registry sessionId fp pick
  apply (sound.withRegistry _ fewer).update c (keeps_setPhase _)
  intro conn' same
  cases here.symm.trans same
  cases left : (s.registry.unregister sessionId fp pick).1 with
  | none => trivial
  | some target =>
    obtain ⟨other,found⟩ := picked target left
    exact ⟨sessionId,fp,other,identity,rfl,sound.entries _ _ _ found⟩

theorem sound_step (authenticate : Authenticator) (s : Server) (call : ServerCall) (sound : s.Sound) :
    (step authenticate s call).2.Sound := by
  have move := step_move authenticate s call
  generalize step authenticate s call = outcome at move
  cases move with
  | idle => exact sound
  | opened challenge => exact sound.opened challenge
  | settled _ c f wire keeps after queue lives =>
    exact sound.update c keeps (fun conn _ => phaseSound_of_settled s (after conn))
  | delivered c sinkOk conn env rest here running queue =>
    exact sound.update c (keeps_routed rest _) (fun conn _ => phaseSound_of_settled s (Phase.settled_continueIf _))
  | registered c bytes sinkOk conn env registry go wire here hello first accepted done =>
    exact sound.registered (received_eq_some here).1 first (Phase.settled_continueIf go) done
  | forwarding c bytes sinkOk conn env target here relayed bound found =>
    exact sound.forwarding (received_eq_some here).1 relayed bound found
  | placed _ c conn env target next here waiting =>
    exact sound.placed c target env (settled_of_waiting waiting)
  | cleaned c pick conn sessionId fp here leaving identity => exact sound.cleaned pick here identity

theorem sound_empty : empty.Sound := by
  refine ⟨fun c conn here => ?_,fun c conn here => ?_,fun sessionId fp t found => ?_⟩
  · simp [empty] at here
  · simp [empty] at here
  · simp [empty,Registry.lookup] at found

end Streamhaul.Server
