import Streamhaul.SignalingRelay

/-! The lifecycle of registrations: how entries of the registry come and go with the
connections that own them. -/
namespace Streamhaul

namespace Registry

/-- The limits of the registry, and no session without a peer. -/
structure Bounded (registry : Registry) : Prop where
  sessions : registry.size ≤ maxSessions
  peers : ∀ sessionId session, registry.get? sessionId = some session →
    1 ≤ session.size ∧ session.size ≤ maxPeersPerSession

theorem bounded_empty : Bounded AssocMap.empty := by
  constructor
  · exact Nat.zero_le _
  · intro sessionId session found
    cases found

theorem Bounded.register {registry registry' : Registry} (bounded : registry.Bounded) {sessionId : SessionId}
    {fp : Text} {c : Nat} (done : registry.register sessionId fp c = .ok registry') : registry'.Bounded := by
  unfold Registry.register at done
  split at done
  · cases done
  · next room =>
    dsimp only at done
    split at done
    · cases done
    · next place =>
      cases done
      constructor
      · have sessions := bounded.sessions
        rw [AssocMap.size_insert]
        split
        · exact sessions
        · next absent =>
          have fewer : ¬registry.size ≥ maxSessions := fun full => room ⟨absent,full⟩
          omega
      · intro other session found
        rw [AssocMap.get?_insert] at found
        split at found
        · cases found
          rw [AssocMap.size_insert]
          split
          · next present =>
            cases known : registry.get? sessionId with
            | none => simp [known,AssocMap.contains] at present
            | some session => exact bounded.peers sessionId session known
          · next absent =>
            have fewer : ¬((registry.get? sessionId).getD AssocMap.empty).size ≥ maxPeersPerSession :=
              fun full => place ⟨full,absent⟩
            omega
        · exact bounded.peers other session found

theorem Bounded.unregister {registry : Registry} (bounded : registry.Bounded) (sessionId : SessionId) (fp : Text)
    (pick : Nat) : (registry.unregister sessionId fp pick).2.Bounded := by
  unfold Registry.unregister
  cases present : registry.get? sessionId with
  | none => exact bounded
  | some session =>
    dsimp only
    split
    · constructor
      · exact (AssocMap.size_erase_le _ _).trans bounded.sessions
      · intro other rest found
        rw [AssocMap.get?_erase] at found
        split at found
        · cases found
        · exact bounded.peers other rest found
    · next nonempty =>
      constructor
      · rw [AssocMap.size_insert,if_pos (by simp [AssocMap.contains,present])]
        exact bounded.sessions
      · intro other rest found
        rw [AssocMap.get?_insert] at found
        split at found
        · cases found
          have smaller := AssocMap.size_erase_le session fp
          have limit := (bounded.peers sessionId session present).2
          omega
        · exact bounded.peers other rest found

end Registry

namespace Server

open Machine

def live (s : Server) (c : Nat) : Bool := (s.connections[c]?).any (fun conn => conn.phase.live)

/-- The call is the cleanup of a connection registered under the given name. -/
def Leaves (s : Server) (call : ServerCall) (d : Nat) (identity : SessionId × Text) : Prop :=
  ∃ pick conn, call = .cleanup d pick ∧ s.connections[d]? = some conn ∧ conn.phase = .exiting ∧
    conn.registration = some identity

section Step

variable (authenticate : Authenticator) (s : Server) (call : ServerCall) {d : Nat} {identity : SessionId × Text}

theorem live_of_getElem? {s : Server} {c : Nat} {conn : Connection} (here : s.connections[c]? = some conn) :
    s.live c = conn.phase.live := by
  simp [live,here]

theorem live_update (c d : Nat) (f : Connection → Connection) :
    (s.update c f).live d = if c = d then (s.connections[d]?).any (fun conn => (f conn).phase.live) else s.live d := by
  unfold live
  rw [getElem?_update]
  split
  · cases s.connections[d]? <;> rfl
  · rfl

theorem live_update_of_same {c : Nat} {f : Connection → Connection} (d : Nat)
    (same : ∀ conn, s.connections[c]? = some conn → (f conn).phase.live = conn.phase.live) :
    (s.update c f).live d = s.live d := by
  rw [live_update]
  split
  · next equal =>
    subst equal
    unfold live
    cases here : s.connections[c]? with
    | none => rfl
    | some conn => exact same conn here
  · rfl

theorem live_update_at {c : Nat} {conn : Connection} {f : Connection → Connection} (here : s.connections[c]? = some conn)
    (d : Nat) (same : (f conn).phase.live = conn.phase.live) : (s.update c f).live d = s.live d := by
  apply live_update_of_same
  intro conn' here'
  cases here.symm.trans here'
  exact same

/-- The cleanup of a registered connection clears its entry and takes it out of the live ones. -/
theorem leaves_step {sessionId : SessionId} {fp : Text} (leaves : s.Leaves call d (sessionId,fp)) :
    ∃ pick, (step authenticate s call).2.registry = (s.registry.unregister sessionId fp pick).2 ∧
      (step authenticate s call).2.live d = false := by
  obtain ⟨pick,conn,rfl,here,leaving,identity⟩ := leaves
  obtain ⟨session,known,name⟩ := Option.bind_eq_some_iff.mp identity
  obtain ⟨fp',named,equal⟩ := Option.map_eq_some_iff.mp name
  cases equal
  refine ⟨pick,?_,?_⟩
  · simp only [step,here,onConnection,leaving,if_true,onCleanup,known,named]
    cases s.registry.unregister sessionId fp pick with
    | mk left registry => cases left <;> rfl
  · simp only [step,here,onConnection,leaving,if_true,onCleanup,known,named]
    cases s.registry.unregister sessionId fp pick with
    | mk left registry => cases left <;> simp [setPhase,live_update,here,Phase.live]

theorem not_leaves_of_live (alive : (step authenticate s call).2.live d = true) :
    ¬s.Leaves call d identity := by
  intro leaves
  obtain ⟨_,_,gone⟩ := leaves_step authenticate s call leaves
  rw [gone] at alive
  cases alive

theorem accepted_step {sessionId : SessionId} {fp : Text}
    (noted : note authenticate (fire (step authenticate) s call) = some (.accepted d sessionId fp)) :
    s.registration d = none ∧ s.live d = true ∧
    s.registry.register sessionId fp d = .ok (step authenticate s call).2.registry ∧
    (step authenticate s call).2.live d = true := by
  obtain ⟨bytes,sinkOk,conn,env,rfl,here,hello,first,accepted,rfl,rfl,after⟩ :=
    accepted_received authenticate s call noted
  obtain ⟨found,running,decoded,fits⟩ := received_eq_some here
  have unknown := registration_none found first
  have alive : s.live d = true := by rw [live_of_getElem? found,running]; rfl
  have taken : step authenticate s (.message d bytes sinkOk) =
      s.onDispatch d conn sinkOk (handleHello authenticate s.registry d conn env) := by
    simp [step,found,onConnection,running,onMessage,Nat.not_lt.mpr fits,handleMessage,decoded,handleEnvelope,first,
      dispatch,hello]
  rw [taken] at after ⊢
  cases done : s.registry.register env.sessionId env.fromFp d with
  | error e =>
    have failed : handleHello authenticate s.registry d conn env = .failed e := by
      simp [handleHello,first,accepted,done]
    rw [failed] at after
    dsimp only [onDispatch] at after
    rw [setPhase,registration_update s d d (keeps_setPhase _),unknown] at after
    cases after
  | ok registry =>
    have entered : handleHello authenticate s.registry d conn env = .registered env registry := by
      simp [handleHello,first,accepted,done]
    rw [entered]
    refine ⟨unknown,alive,rfl,?_⟩
    dsimp only [onDispatch]
    rw [live_update]
    simp [found,Connection.register,Phase.live_continueIf]

/-- What a step does to one entry: another connection takes it, its holder's name leaves, or
it stays. -/
inductive Turn (sessionId : SessionId) (fp : Text) : Option Nat → Prop
  | joined (d : Nat)
      (noted : note authenticate (fire (step authenticate) s call) = some (.accepted d sessionId fp)) :
      Turn sessionId fp (some d)
  | left (d : Nat) (leaves : s.Leaves call d (sessionId,fp)) : Turn sessionId fp none
  | kept (unnoted : ∀ d, note authenticate (fire (step authenticate) s call) ≠ some (.accepted d sessionId fp))
      (stays : ∀ d, ¬s.Leaves call d (sessionId,fp)) : Turn sessionId fp (s.registry.lookup sessionId fp)

theorem lookup_turn (sessionId : SessionId) (fp : Text) :
    Turn authenticate s call sessionId fp ((step authenticate s call).2.registry.lookup sessionId fp) := by
  by_cases joins : ∃ d, note authenticate (fire (step authenticate) s call) = some (.accepted d sessionId fp)
  · obtain ⟨d,noted⟩ := joins
    obtain ⟨_,_,done,_⟩ := accepted_step authenticate s call noted
    rw [Registry.lookup_register done,if_pos ⟨rfl,rfl⟩]
    exact .joined d noted
  by_cases leaving : ∃ d, s.Leaves call d (sessionId,fp)
  · obtain ⟨d,leaves⟩ := leaving
    obtain ⟨pick,cleared,_⟩ := leaves_step authenticate s call leaves
    rw [cleared,Registry.lookup_unregister,if_pos ⟨rfl,rfl⟩]
    exact .left d leaves
  have same : (step authenticate s call).2.registry.lookup sessionId fp = s.registry.lookup sessionId fp := by
    unfold fire at joins
    have move := step_move authenticate s call
    generalize step authenticate s call = outcome at move joins
    cases move with
    | registered c bytes sinkOk conn env registry go wire here hello first accepted done =>
      have now := registration_register s registry c c env (continueIf go) (received_eq_some here).1
      rw [if_pos rfl] at now
      apply (Registry.lookup_register done sessionId fp).trans
      apply if_neg
      rintro ⟨rfl,rfl⟩
      exact joins ⟨c,note_of_registered authenticate s here hello first accepted now⟩
    | cleaned c pick conn own name here exits identity =>
      apply (Registry.lookup_unregister s.registry own name pick sessionId fp).trans
      apply if_neg
      rintro ⟨rfl,rfl⟩
      exact leaving ⟨c,pick,conn,rfl,here,exits,identity⟩
    | _ => rfl
  rw [same]
  exact .kept (fun d noted => joins ⟨d,noted⟩) (fun d leaves => leaving ⟨d,leaves⟩)

theorem live_opened {s : Server} (challenge : Vector UInt8 32) (present : (s.connections[d]?).isSome) :
    { s with connections := s.connections ++ [Connection.fresh challenge] : Server }.live d = s.live d := by
  have before : d < s.connections.length := by simpa using present
  simp only [live,List.getElem?_append_left before]

theorem isSome_of_registration {s : Server}
    (known : s.registration d = some identity) : (s.connections[d]?).isSome := by
  obtain ⟨conn,here,_⟩ := Option.bind_eq_some_iff.mp known
  rw [here]
  rfl

theorem live_step (known : s.registration d = some identity) :
    (step authenticate s call).2.live d = s.live d ∨ s.Leaves call d identity := by
  have move := step_move authenticate s call
  generalize step authenticate s call = outcome at move
  cases move with
  | idle => exact .inl rfl
  | opened challenge => exact .inl (live_opened challenge (isSome_of_registration known))
  | settled _ c f wire keeps after queue lives =>
    by_cases same : c = d
    · subst same
      apply Or.inl
      apply live_update_of_same
      intro conn here
      rcases lives conn here with alive | ⟨unknown,_⟩
      · exact alive
      · simp [registration,here,unknown] at known
    · exact .inl ((live_update s c d f).trans (if_neg same))
  | delivered c sinkOk conn env rest here running queue =>
    refine .inl (live_update_at s here d ?_)
    rw [running]
    exact Phase.live_continueIf _
  | registered c bytes sinkOk conn env registry go wire here hello first accepted done =>
    obtain ⟨found,running,_⟩ := received_eq_some here
    refine .inl (live_update_at s found d ?_)
    rw [running]
    exact Phase.live_continueIf go
  | forwarding c bytes sinkOk conn env target here relayed bound found =>
    obtain ⟨found,running,_⟩ := received_eq_some here
    refine .inl (live_update_at s found d ?_)
    rw [running]
    rfl
  | placed _ c conn env target next here waiting =>
    apply Or.inl
    have queued : (s.update target (Connection.enqueue env)).live d = s.live d :=
      live_update_of_same s d (fun _ _ => rfl)
    apply Eq.trans _ queued
    apply live_update_of_same
    intro conn' here'
    have phase : conn'.phase = conn.phase := by
      rcases getElem?_update_some here' with same | ⟨rfl,old,found,rfl⟩
      · cases here.symm.trans same
        rfl
      · cases here.symm.trans found
        rfl
    rcases waiting with ⟨_,was,rfl⟩ | ⟨_,was,rfl⟩ <;> rw [phase,was] <;> rfl
  | cleaned c pick conn sessionId fp here leaving own =>
    by_cases same : c = d
    · subst same
      have equal : identity = (sessionId,fp) := by simpa [registration,here,own] using known.symm
      rw [equal]
      exact .inr ⟨pick,conn,rfl,here,leaving,own⟩
    · exact .inl ((live_update _ c d _).trans (if_neg same))

end Step

/-- Each entry belongs to a live connection of that name, within the limits of the registry. -/
structure Kept (s : Server) : Prop where
  sound : s.Sound
  bounded : s.registry.Bounded
  owned : ∀ sessionId fp t, s.registry.lookup sessionId fp = some t → s.live t = true

theorem bounded_step (authenticate : Authenticator) (s : Server) (call : ServerCall) (bounded : s.registry.Bounded) :
    (step authenticate s call).2.registry.Bounded := by
  have move := step_move authenticate s call
  generalize step authenticate s call = outcome at move
  cases move with
  | registered c bytes sinkOk conn env registry go wire here hello first accepted done => exact bounded.register done
  | cleaned c pick conn sessionId fp => exact bounded.unregister sessionId fp pick
  | _ => exact bounded

theorem kept_step (authenticate : Authenticator) (s : Server) (call : ServerCall) (kept : s.Kept) :
    (step authenticate s call).2.Kept where
  sound := sound_step authenticate s call kept.sound
  bounded := bounded_step authenticate s call kept.bounded
  owned sessionId fp t found := by
    have turn := lookup_turn authenticate s call sessionId fp
    rw [found] at turn
    generalize entry : some t = after at turn
    cases turn with
    | joined d noted =>
      cases entry
      exact (accepted_step authenticate s call noted).2.2.2
    | left => cases entry
    | kept unnoted stays =>
      have known := kept.sound.entries sessionId fp t entry.symm
      rcases live_step authenticate s call known with same | leaves
      · rw [same]
        exact kept.owned sessionId fp t entry.symm
      · exact absurd leaves (stays t)

theorem kept_run (authenticate : Authenticator) (calls : List ServerCall) :
    (final (step authenticate) empty calls).Kept := by
  apply final_invariant (step authenticate) (fun _ _ => True) Kept
  · exact fun s call _ kept => kept_step authenticate s call kept
  · refine ⟨sound_empty,Registry.bounded_empty,fun sessionId fp t found => ?_⟩
    simp [empty,Registry.lookup] at found
  · exact fun _ _ => trivial

theorem connection_of_registration {s : Server} {t : Nat} {sessionId : SessionId} {fp : Text}
    (known : s.registration t = some (sessionId,fp)) :
    ∃ conn, s.connections[t]? = some conn ∧ conn.registeredSession = some sessionId ∧ conn.registeredFp = some fp := by
  obtain ⟨conn,here,identity⟩ := Option.bind_eq_some_iff.mp known
  obtain ⟨session,first,name⟩ := Option.bind_eq_some_iff.mp identity
  obtain ⟨fp',second,equal⟩ := Option.map_eq_some_iff.mp name
  cases equal
  exact ⟨conn,here,first,second⟩

/-- In every reachable state the registry is within its limits, each of its entries is the
sender of a connection that still runs under that name, and when all connections have ended
it is empty. -/
theorem registry_bounded_and_owned (authenticate : Authenticator) (calls : List ServerCall) :
    let s := final (step authenticate) empty calls
    s.registry.size ≤ maxSessions ∧
    (∀ sessionId session, s.registry.get? sessionId = some session →
      1 ≤ session.size ∧ session.size ≤ maxPeersPerSession ∧
      ∀ fp t, session.get? fp = some t → ∃ conn, s.connections[t]? = some conn ∧ conn.phase.live = true ∧
        conn.registeredSession = some sessionId ∧ conn.registeredFp = some fp) ∧
    ((∀ conn ∈ s.connections, conn.phase = .ended) → s.registry = AssocMap.empty) := by
  intro s
  have kept : s.Kept := kept_run authenticate calls
  have owner : ∀ sessionId session, s.registry.get? sessionId = some session → ∀ fp t, session.get? fp = some t →
      ∃ conn, s.connections[t]? = some conn ∧ conn.phase.live = true ∧
        conn.registeredSession = some sessionId ∧ conn.registeredFp = some fp := by
    intro sessionId session found fp t peer
    have entry : s.registry.lookup sessionId fp = some t := by
      rw [Registry.lookup,found]
      exact peer
    obtain ⟨conn,here,named,known⟩ := connection_of_registration (kept.sound.entries sessionId fp t entry)
    have alive := kept.owned sessionId fp t entry
    rw [live_of_getElem? here] at alive
    exact ⟨conn,here,alive,named,known⟩
  refine ⟨kept.bounded.sessions,?_,?_⟩
  · intro sessionId session found
    obtain ⟨some,few⟩ := kept.bounded.peers sessionId session found
    exact ⟨some,few,owner sessionId session found⟩
  · intro ended
    apply AssocMap.eq_empty_of_get?
    intro sessionId
    cases found : s.registry.get? sessionId with
    | none => rfl
    | some session =>
      obtain ⟨fp,t,peer⟩ := AssocMap.exists_of_size_pos (kept.bounded.peers sessionId session found).1
      obtain ⟨conn,here,alive,_⟩ := owner sessionId session found fp t peer
      rw [ended conn (List.mem_of_getElem? here)] at alive
      cases alive

/-- A step that takes a name away from the connection that holds it: a further connection
registers under the name, or another connection of that name cleans up. -/
def Displaces (authenticate : Authenticator) (c : Nat) (sessionId : SessionId) (fp : Text)
    (e : Event Server ServerCall ServerResponse) : Prop :=
  (∃ d, d ≠ c ∧ note authenticate e = some (.accepted d sessionId fp)) ∨
    ∃ d, d ≠ c ∧ e.before.Leaves e.call d (sessionId,fp)

section Reconnect

variable (authenticate : Authenticator) {c : Nat} {sessionId : SessionId} {fp : Text} {s : Server}

/-- While a registered connection stays live, one step keeps its entry unless it displaces it,
and nothing gives a lost entry back. -/
theorem entry_step (call : ServerCall) (known : s.registration c = some (sessionId,fp))
    (alive : (step authenticate s call).2.live c = true) :
    (step authenticate s call).2.registry.lookup sessionId fp = some c ↔
      s.registry.lookup sessionId fp = some c ∧
        ¬Displaces authenticate c sessionId fp (fire (step authenticate) s call) := by
  have stays : ¬s.Leaves call c (sessionId,fp) := not_leaves_of_live authenticate s call alive
  have other : ∀ d, note authenticate (fire (step authenticate) s call) = some (.accepted d sessionId fp) → d ≠ c := by
    rintro d noted rfl
    rw [(accepted_step authenticate s call noted).1] at known
    cases known
  have turn := lookup_turn authenticate s call sessionId fp
  generalize (step authenticate s call).2.registry.lookup sessionId fp = after at turn
  cases turn with
  | joined d noted =>
    constructor
    · intro same
      cases same
      exact absurd rfl (other c noted)
    · rintro ⟨_,undisturbed⟩
      exact absurd (.inl ⟨d,other d noted,noted⟩) undisturbed
  | left d leaves =>
    constructor
    · intro same
      cases same
    · rintro ⟨_,undisturbed⟩
      have apart : d ≠ c := by
        rintro rfl
        exact stays leaves
      exact absurd (.inr ⟨d,apart,leaves⟩) undisturbed
  | kept unnoted undisturbed =>
    constructor
    · intro same
      refine ⟨same,?_⟩
      rintro (⟨d,_,noted⟩ | ⟨d,_,leaves⟩)
      · exact unnoted d noted
      · exact undisturbed d leaves
    · exact fun same => same.1

theorem live_of_live_step (call : ServerCall) {identity : SessionId × Text}
    (known : s.registration c = some identity) (alive : (step authenticate s call).2.live c = true) :
    s.live c = true := by
  rcases live_step authenticate s call known with same | leaves
  · exact same.symm.trans alive
  · exact absurd leaves (not_leaves_of_live authenticate s call alive)

theorem live_of_live_final (calls : List ServerCall) {identity : SessionId × Text}
    (known : s.registration c = some identity) (alive : (final (step authenticate) s calls).live c = true) :
    s.live c = true := by
  induction calls generalizing s with
  | nil => exact alive
  | cons call rest ih =>
    apply live_of_live_step authenticate call known
    exact ih (registration_step_mono authenticate s call known) alive

theorem entry_final (calls : List ServerCall) (known : s.registration c = some (sessionId,fp))
    (alive : (final (step authenticate) s calls).live c = true) :
    (final (step authenticate) s calls).registry.lookup sessionId fp = some c ↔
      s.registry.lookup sessionId fp = some c ∧
        ∀ e ∈ trace (step authenticate) s calls, ¬Displaces authenticate c sessionId fp e := by
  induction calls generalizing s with
  | nil => simp [final,trace]
  | cons call rest ih =>
    have next := registration_step_mono authenticate s call known
    have first := entry_step authenticate call known (live_of_live_final authenticate rest next alive)
    rw [final,ih next alive,first,trace,List.forall_mem_cons,and_assoc]

theorem silent_of_undisturbed {o : Nat} (apart : o ≠ c) (calls : List ServerCall)
    (known : s.registration o = some (sessionId,fp)) (alive : s.live o = true)
    (undisturbed : ∀ e ∈ trace (step authenticate) s calls, ¬Displaces authenticate c sessionId fp e) :
    ∀ e ∈ trace (step authenticate) s calls, e.call = .notify o → e.response.placed = none := by
  induction calls generalizing s with
  | nil => simp [trace]
  | cons call rest ih =>
    rw [trace,List.forall_mem_cons] at undisturbed ⊢
    refine ⟨?_,ih (registration_step_mono authenticate s call known) ?_ undisturbed.2⟩
    · intro notify
      cases placed : (step authenticate s call).1.placed with
      | none => exact placed
      | some sent =>
        have own : call.connection = some o := by rw [show call = .notify o from notify]; rfl
        obtain ⟨conn,here,⟨sends,_⟩ | ⟨_,phase⟩⟩ := placed_step authenticate s call own placed
        · cases sends.symm.trans notify
        · rw [live_of_getElem? here,phase] at alive
          cases alive
    · rcases live_step authenticate s call known with same | leaves
      · exact same.trans alive
      · exact absurd (.inr ⟨o,apart,leaves⟩) undisturbed.1

/-- A second connection has registered under a name that an older one still holds. For as long
as it has not cleaned up, the name leads to it and the older one announces no leaving, exactly
when no other connection of that name has cleaned up since and none has registered under it. -/
theorem reconnect_routable_iff (earlier later : List ServerCall) (o : Nat) (bytes : Bytes) (sinkOk : Bool)
    (older : (final (step authenticate) empty earlier).registry.lookup sessionId fp = some o)
    (hello : note authenticate (fire (step authenticate) (final (step authenticate) empty earlier)
      (.message c bytes sinkOk)) = some (.accepted c sessionId fp))
    (alive : (final (step authenticate)
      (step authenticate (final (step authenticate) empty earlier) (.message c bytes sinkOk)).2 later).live c = true) :
    let joined := (step authenticate (final (step authenticate) empty earlier) (.message c bytes sinkOk)).2
    ((final (step authenticate) joined later).registry.lookup sessionId fp = some c ∧
      ∀ e ∈ trace (step authenticate) joined later, e.call = .notify o → e.response.placed = none) ↔
    ∀ e ∈ trace (step authenticate) joined later, ¬Displaces authenticate c sessionId fp e := by
  intro joined
  have kept := kept_run authenticate earlier
  have named := kept.sound.entries sessionId fp o older
  obtain ⟨unknown,_,done,_⟩ := accepted_step authenticate _ _ hello
  have apart : o ≠ c := by
    rintro rfl
    rw [unknown] at named
    cases named
  have known : joined.registration c = some (sessionId,fp) := registration_of_note authenticate _ _ hello
  have entry : joined.registry.lookup sessionId fp = some c := by
    rw [Registry.lookup_register done,if_pos ⟨rfl,rfl⟩]
  have olderKnown : joined.registration o = some (sessionId,fp) := registration_step_mono authenticate _ _ named
  have olderAlive : joined.live o = true := by
    have before := kept.owned sessionId fp o older
    rcases live_step authenticate _ (.message c bytes sinkOk) named with same | ⟨pick,_,other,_⟩
    · exact same.trans before
    · cases other
  rw [entry_final authenticate later known alive]
  constructor
  · exact fun both => both.1.2
  · exact fun undisturbed =>
      ⟨⟨entry,undisturbed⟩,silent_of_undisturbed authenticate apart later olderKnown olderAlive undisturbed⟩

end Reconnect

open Server.Transparent

namespace Transparent

/-- The peers `a` and `b` of session 1, and a third connection. -/
def bothPeers : List ServerCall :=
  opens ++ [.accept (Vector.replicate 32 2) true,sends 0 (envelope .hello 1 'a' '0'),sends 1 (envelope .hello 1 'b' '0')]

def bothState : Server :=
  (take (take (final (step acceptAll) empty (opens ++ [.accept (Vector.replicate 32 2) true])) 0
    (envelope .hello 1 'a' '0')).2 1 (envelope .hello 1 'b' '0')).2

theorem final_bothPeers : final (step acceptAll) empty bothPeers = bothState := by
  have split : bothPeers = (opens ++ [.accept (Vector.replicate 32 2) true]) ++
      [sends 0 (envelope .hello 1 'a' '0'),sends 1 (envelope .hello 1 'b' '0')] := rfl
  rw [split,final_append,final_sends _ _ (envelope_valid .hello 1 (by decide) (by decide)),
    final_sends _ _ (envelope_valid .hello 1 (by decide) (by decide)),final,bothState]

def rejoin : SignalingEnvelope := envelope .hello 1 'b' '0'

theorem rejoin_valid : rejoin.Valid := envelope_valid .hello 1 (by decide) (by decide)

def rejoinBytes : Bytes := rejoin.header ++ rejoin.payload

theorem step_rejoin : step acceptAll bothState (.message 2 rejoinBytes true) = take bothState 2 rejoin :=
  step_sends bothState 2 rejoin_valid

theorem note_rejoin : note acceptAll (fire (step acceptAll) bothState (.message 2 rejoinBytes true)) =
    some (.accepted 2 (sessionOf 1) (fpOf 'b')) := by
  have present : bothState.connections[2]? = some (Connection.fresh (Vector.replicate 32 2)) := by decide +kernel
  have here : bothState.received 2 rejoinBytes = some (Connection.fresh (Vector.replicate 32 2),rejoin) := by
    have fits : rejoinBytes.length ≤ maxWsMessageSize := rejoin_valid.fits
    have decoded : SignalingEnvelope.decode rejoinBytes = .ok rejoin := rejoin_valid.decoded
    simp [received,present,decoded,fits,Connection.fresh]
  unfold fire
  apply note_of_registered acceptAll bothState here rfl rfl rfl
  rw [step_rejoin]
  decide +kernel

end Transparent

theorem reconnect_routable_alone :
    let joined := (step acceptAll (final (step acceptAll) empty bothPeers) (.message 2 rejoinBytes true)).2
    (final (step acceptAll) joined [.hangUp 0]).registry.lookup (sessionOf 1) (fpOf 'b') = some 2 ∧
      ∀ e ∈ trace (step acceptAll) joined [.hangUp 0], e.call = .notify 1 → e.response.placed = none := by
  intro joined
  have undisturbed : ∀ e ∈ trace (step acceptAll) joined [.hangUp 0],
      ¬Displaces acceptAll 2 (sessionOf 1) (fpOf 'b') e := by
    intro e member displaces
    obtain rfl := List.mem_singleton.mp member
    rcases displaces with ⟨d,_,registers⟩ | ⟨d,_,pick,conn,cleans,_⟩
    · cases registers
    · cases cleans
  refine (reconnect_routable_iff acceptAll bothPeers [.hangUp 0] 1 rejoinBytes true ?_ ?_ ?_).mpr undisturbed
  · rw [final_bothPeers]
    decide +kernel
  · rw [final_bothPeers]
    exact note_rejoin
  · rw [final_bothPeers,step_rejoin]
    decide +kernel

/-- The older connection of `b` closes: its cleanup takes the newer one's entry away and
tells `a` that `b` has left. -/
theorem closing_older_unroutes :
    let joined := (step acceptAll (final (step acceptAll) empty bothPeers) (.message 2 rejoinBytes true)).2
    (final (step acceptAll) empty bothPeers).registry.lookup (sessionOf 1) (fpOf 'b') = some 1 ∧
    note acceptAll (fire (step acceptAll) (final (step acceptAll) empty bothPeers) (.message 2 rejoinBytes true)) =
      some (.accepted 2 (sessionOf 1) (fpOf 'b')) ∧
    (final (step acceptAll) joined [.hangUp 1,.cleanup 1 0]).live 2 = true ∧
    (final (step acceptAll) joined [.hangUp 1,.cleanup 1 0]).registry.lookup (sessionOf 1) (fpOf 'b') = none ∧
    (step acceptAll (final (step acceptAll) joined [.hangUp 1,.cleanup 1 0]) (.notify 1)).1.placed =
      some (0,makeBye (sessionOf 1) (fpOf 'b')) := by
  rw [final_bothPeers,step_rejoin]
  refine ⟨by decide +kernel,note_rejoin,by decide +kernel,by decide +kernel,by decide +kernel⟩

end Server

end Streamhaul
