import Streamhaul.TurnReplay

/-! The allocation of a TURN client: when its relay address is the one of a live allocation, and
what a request that fails leaves behind. -/
namespace Streamhaul.TurnClient

open Machine

/-- The client holds an allocation on the server. -/
def Live (client : TurnClient) : Prop := client.state = .allocated ∨ client.state = .refreshing

instance (client : TurnClient) : Decidable client.Live := by
  unfold Live
  infer_instance

/-- The relay address is known exactly while an allocation is live. -/
def Tracks (client : TurnClient) : Prop := client.relayAddr.isSome = true ↔ client.Live

def Ready (client : TurnClient) : Prop := client.realm.isSome ∧ client.nonce.isSome ∧ client.ltKey.isSome

instance (client : TurnClient) : Decidable client.Ready := by
  unfold Ready
  infer_instance

/-- With what it knows and what the challenge brings, the client can answer the challenge. -/
def Answerable (client : TurnClient) (msg : TurnMessage) : Prop :=
  if msg.errorCode = some 401 then
    (msg.realm.isSome ∨ client.realm.isSome) ∧ (msg.nonce.isSome ∨ client.nonce.isSome)
  else client.realm.isSome ∧ (msg.nonce.isSome ∨ client.nonce.isSome) ∧ client.ltKey.isSome

/-- What the calls look at and change of the allocation. -/
def allocation (client : TurnClient) : TurnState × Option TransactionId × Option SocketAddr :=
  (client.state,client.pendingTid,client.relayAddr)

section Frames

variable (env : TurnEnv) (client : TurnClient) (sendTo : Except IceError Unit)

@[simp] theorem transmit_allocation (message : TurnMessage) (key : Option Bytes) :
    (client.transmit message key sendTo).2.allocation = client.allocation := by
  cases sendTo <;> rfl

@[simp] theorem transmit_response (message : TurnMessage) (key : Option Bytes) :
    (client.transmit message key sendTo).1 = sendTo := by
  cases sendTo <;> rfl

theorem sendPeerRequest_allocation (method : UInt16) (attrs : List TurnAttr) :
    (client.sendPeerRequest env sendTo method attrs).2.allocation = client.allocation := by
  unfold sendPeerRequest
  split
  · rfl
  · exact transmit_allocation _ _ _ _

theorem createPermission_allocation (peer : SocketAddr) :
    (client.createPermission env sendTo peer).2.allocation = client.allocation := by
  unfold createPermission
  split
  · rfl
  · exact sendPeerRequest_allocation _ _ _ _ _

theorem channelBind_allocation (channel : UInt16) (peer : SocketAddr) :
    (client.channelBind env sendTo channel peer).2.allocation = client.allocation := by
  unfold channelBind
  split
  · rfl
  · split
    · rfl
    · exact sendPeerRequest_allocation _ _ _ _ _

theorem sendIndication_allocation (peer : SocketAddr) (payload : Bytes) :
    (client.sendIndication env sendTo peer payload).2.allocation = client.allocation := by
  unfold sendIndication
  split
  · rfl
  · exact transmit_allocation _ _ _ _

/-- The first request is always attempted. -/
theorem startAllocate_spec : (client.startAllocate env sendTo).1 = sendTo ∧
    (client.startAllocate env sendTo).2.allocation =
      (.allocating,some (env.tid client.drawn),client.relayAddr) :=
  ⟨transmit_response _ _ _ _,transmit_allocation _ _ _ _⟩

theorem sendAuthenticatedAllocate_spec :
    (client.Ready → (client.sendAuthenticatedAllocate env sendTo).1 = sendTo ∧
      (client.sendAuthenticatedAllocate env sendTo).2.allocation =
        (.allocatingAuthenticated,some (env.tid client.drawn),client.relayAddr)) ∧
    (¬client.Ready → (client.sendAuthenticatedAllocate env sendTo).1 ≠ .ok () ∧
      (client.sendAuthenticatedAllocate env sendTo).2.allocation = client.allocation) := by
  unfold sendAuthenticatedAllocate Ready
  cases client.realm with
  | none => simp
  | some realm =>
    cases client.nonce with
    | none => simp
    | some nonce =>
      cases client.ltKey with
      | none => simp
      | some ltKey =>
        refine ⟨fun _ => ⟨transmit_response _ _ _ _,transmit_allocation _ _ _ _⟩,fun unready => ?_⟩
        exact absurd ⟨rfl,rfl,rfl⟩ unready

theorem credentials_ok_iff : (∃ known, client.credentials = .ok known) ↔ client.Ready := by
  unfold credentials Ready
  cases client.ltKey with
  | none => simp
  | some ltKey =>
    cases client.realm with
    | none => simp
    | some realm => cases client.nonce <;> simp

theorem sendRefresh_spec :
    (client.state = .allocated ∧ client.Ready → (client.sendRefresh env sendTo).1 = sendTo ∧
      (client.sendRefresh env sendTo).2.allocation = (.refreshing,some (env.tid client.drawn),client.relayAddr)) ∧
    (¬(client.state = .allocated ∧ client.Ready) → (client.sendRefresh env sendTo).1 ≠ .ok () ∧
      (client.sendRefresh env sendTo).2.allocation = client.allocation) := by
  rw [← credentials_ok_iff]
  unfold sendRefresh
  by_cases allocated : client.state = .allocated
  · rw [if_neg (not_not_intro allocated)]
    cases found : client.credentials with
    | error e => simp
    | ok known =>
      refine ⟨fun _ => ⟨transmit_response _ _ _ _,transmit_allocation _ _ _ _⟩,fun unready => ?_⟩
      exact absurd ⟨allocated,known,rfl⟩ unready
  · simp [allocated]

end Frames

section Relay

variable {env : TurnEnv} {client after : TurnClient} {msg : TurnMessage}

/-- A message the client accepts fits the allocation: a success brings or finds a relay address,
and errors and answered challenges come while no allocation is live. -/
def Fits (client : TurnClient) (msg : TurnMessage) : Prop :=
  if msg.method = methodAllocate ∧ msg.class' = 2 then msg.relayAddress.isSome ∨ client.Live
  else if msg.method = methodAllocate ∧ msg.class' = 3 then
    client.Live → msg.Challenges ∧ client.authAttempts = 0 ∧ ¬client.Answerable msg
  else if msg.method = methodRefresh ∧ msg.class' = 2 then client.Live
  else if msg.method = methodRefresh ∧ msg.class' = 3 then ¬client.Live
  else True

/-- The calls that keep the relay address that of the allocation. -/
def Consistent (env : TurnEnv) (client : TurnClient) : TurnCall → Prop
  | .startAllocate _ => ¬client.Live
  | .sendAuthenticatedAllocate _ => client.Live → ¬client.Ready
  | .handleIncoming raw _ _ => ∀ msg, client.Accepts env raw msg → client.Fits msg
  | _ => True

theorem tracks_congr (same : after.allocation = client.allocation) : after.Tracks ↔ client.Tracks := by
  simp only [allocation,Prod.mk.injEq] at same
  simp only [Tracks,Live,same]

theorem tracks_idle (tracks : client.Tracks) (relay : after.relayAddr = client.relayAddr) (idle : ¬after.Live) :
    after.Tracks ↔ ¬client.Live := by
  have known : client.relayAddr.isSome = true ↔ client.Live := tracks
  rw [Tracks,relay,known]
  exact ⟨fun same live => idle (same.mp live),fun dead => iff_of_false dead idle⟩

theorem tracks_live (live : after.Live) : after.Tracks ↔ after.relayAddr.isSome = true :=
  ⟨fun tracks => tracks.mpr live,fun known => iff_of_true known live⟩

theorem tracks_sendAuthenticatedAllocate (tracks : client.Tracks) (sendTo : Except IceError Unit) :
    (client.sendAuthenticatedAllocate env sendTo).2.Tracks ↔ (client.Live → ¬client.Ready) := by
  obtain ⟨attempted,refused⟩ := client.sendAuthenticatedAllocate_spec env sendTo
  by_cases ready : client.Ready
  · have moved := (attempted ready).2
    simp only [allocation,Prod.mk.injEq] at moved
    rw [tracks_idle tracks moved.2.2 (by simp [Live,moved])]
    exact ⟨fun dead live => absurd live dead,fun unready live => unready live ready⟩
  · exact iff_of_true ((tracks_congr (refused ready).2).mpr tracks) (fun _ => ready)

theorem tracks_sendRefresh (tracks : client.Tracks) (sendTo : Except IceError Unit) :
    (client.sendRefresh env sendTo).2.Tracks := by
  obtain ⟨attempted,refused⟩ := client.sendRefresh_spec env sendTo
  by_cases ready : client.state = .allocated ∧ client.Ready
  · have moved := (attempted ready).2
    simp only [allocation,Prod.mk.injEq] at moved
    rw [tracks_live (.inr moved.1),moved.2.2]
    exact tracks.mpr (.inl ready.1)
  · exact (tracks_congr (refused ready).2).mpr tracks

variable (env client msg) in
theorem learn_ready_iff : (client.learn env msg).Ready ↔ client.Answerable msg := by
  unfold learn Answerable Ready
  by_cases first : msg.errorCode = some 401
  · rw [if_pos first,if_pos first]
    unfold learnChallenge
    cases msg.realm <;> cases msg.nonce <;> cases client.realm <;> cases client.nonce <;> simp
  · rw [if_neg first,if_neg first]
    unfold learnNonce
    cases msg.nonce <;> simp

/-- A success leaves the relay address of an allocation when it brings or finds one. -/
theorem tracks_granted (tracks : client.Tracks) (relay : Option SocketAddr) (now : Int) :
    (extendLifetime { client with relayAddr := relay.or client.relayAddr } msg now).Tracks ↔
      relay.isSome ∨ client.Live := by
  rw [tracks_live (.inl rfl),← show client.relayAddr.isSome = true ↔ client.Live from tracks]
  simp [extendLifetime]

theorem tracks_expired (tracks : client.Tracks) : { client with state := TurnState.expired }.Tracks ↔ ¬client.Live :=
  tracks_idle tracks rfl (by simp [Live])

theorem tracks_challenged (tracks : client.Tracks) (sendTo : Except IceError Unit) :
    ((client.learn env msg).sendAuthenticatedAllocate env sendTo).2.Tracks ↔ (client.Live → ¬client.Answerable msg) := by
  obtain ⟨state,relay,-,pending,-,-⟩ := learn_frame env client msg
  have same : (client.learn env msg).allocation = client.allocation := by simp only [allocation,state,relay,pending]
  have live : (client.learn env msg).Live ↔ client.Live := by simp only [Live,state]
  rw [tracks_sendAuthenticatedAllocate ((tracks_congr same).mpr tracks),learn_ready_iff,live]

theorem tracks_onAllocateError (tracks : client.Tracks) (allocate : msg.method = methodAllocate) (failure : msg.class' = 3)
    (sendTo : Except IceError Unit) : (client.onAllocateError env msg sendTo).2.Tracks ↔
      (client.Live → msg.Challenges ∧ client.authAttempts = 0 ∧ ¬client.Answerable msg) := by
  by_cases code : msg.errorCode = some 401 ∨ msg.errorCode = some 438
  · have challenge : msg.Challenges := ⟨allocate,failure,code⟩
    rw [onAllocateError_of_challenges sendTo challenge]
    by_cases first : client.authAttempts = 0
    · rw [if_pos first]
      refine (tracks_challenged tracks sendTo).trans ?_
      simp [challenge,first]
    · rw [if_neg first]
      refine (tracks_expired tracks).trans ?_
      simp [first]
  · obtain ⟨reason,ended⟩ := @onAllocateError_of_other env client msg sendTo code
    rw [ended,tracks_expired tracks]
    exact ⟨fun dead live => absurd live dead,fun fits live => code (fits live).1.2.2⟩

theorem tracks_dispatch (tracks : client.Tracks) (now : Int) (sendTo : Except IceError Unit) :
    (client.dispatch env msg now sendTo).2.Tracks ↔ client.Fits msg := by
  unfold Fits
  by_cases success : msg.method = methodAllocate ∧ msg.class' = 2
  · rw [dispatch_granted now sendTo success.1 success.2,if_pos success]
    exact tracks_granted tracks msg.relayAddress now
  rw [if_neg success]
  by_cases failure : msg.method = methodAllocate ∧ msg.class' = 3
  · rw [dispatch_allocate_error now sendTo failure.1 failure.2,if_pos failure]
    exact tracks_onAllocateError tracks failure.1 failure.2 sendTo
  rw [dispatch,if_neg success,if_neg failure,if_neg failure]
  by_cases refreshed : msg.method = methodRefresh ∧ msg.class' = 2
  · rw [if_pos refreshed,if_pos refreshed]
    exact (tracks_granted tracks none now).trans (by simp)
  rw [if_neg refreshed,if_neg refreshed]
  by_cases refused : msg.method = methodRefresh ∧ msg.class' = 3
  · rw [if_pos refused,if_pos refused]
    exact tracks_expired tracks
  rw [if_neg refused,if_neg refused]
  split
  · split <;> exact iff_of_true tracks trivial
  · exact iff_of_true tracks trivial

theorem tracks_handleIncoming (tracks : client.Tracks) (raw : Bytes) (now : Int) (sendTo : Except IceError Unit) :
    (client.handleIncoming env now sendTo raw).2.Tracks ↔ ∀ msg, client.Accepts env raw msg → client.Fits msg := by
  by_cases accepted : ∃ msg, client.Accepts env raw msg
  · obtain ⟨msg,accepts⟩ := accepted
    rw [handleIncoming_of_accepts now sendTo accepts,tracks_dispatch tracks]
    refine ⟨fun fits msg' accepts' => ?_,fun fits => fits msg accepts⟩
    cases accepts.decoded.symm.trans accepts'.decoded
    exact fits
  · rcases handleIncoming_cases now sendTo with same | someone
    · rw [same]
      exact iff_of_true tracks (fun msg accepts => absurd ⟨msg,accepts⟩ accepted)
    · exact absurd someone accepted

/-- A call keeps the relay address that of the allocation exactly when it is consistent. -/
theorem tracks_step (tracks : client.Tracks) (call : TurnCall) :
    (client.step env call).2.Tracks ↔ client.Consistent env call := by
  cases call with
  | startAllocate sendTo =>
    have moved := (client.startAllocate_spec env sendTo).2
    simp only [allocation,Prod.mk.injEq] at moved
    exact tracks_idle tracks moved.2.2 (by simp [Live,step,moved])
  | sendAuthenticatedAllocate sendTo => exact tracks_sendAuthenticatedAllocate tracks sendTo
  | sendRefresh sendTo => exact iff_of_true (tracks_sendRefresh tracks sendTo) trivial
  | createPermission peer sendTo =>
    exact iff_of_true ((tracks_congr (client.createPermission_allocation env sendTo peer)).mpr tracks) trivial
  | channelBind channel peer sendTo =>
    exact iff_of_true ((tracks_congr (client.channelBind_allocation env sendTo channel peer)).mpr tracks) trivial
  | sendIndication peer payload sendTo =>
    exact iff_of_true ((tracks_congr (client.sendIndication_allocation env sendTo peer payload)).mpr tracks) trivial
  | handleIncoming raw now sendTo => exact tracks_handleIncoming tracks raw now sendTo
  | markExpired => exact iff_of_true (iff_of_false (by simp [step,markExpired]) (by simp [Live,step,markExpired])) trivial

end Relay

/-- Along a run the relay address is known exactly while an allocation is live, precisely when
no Allocate request or error response comes while one is live, and no success without a relay address
while none is. -/
theorem relay_tracks_iff (env : TurnEnv) (config : TurnConfig) (calls : List TurnCall) :
    (∀ e ∈ trace (step env) (new config) calls, e.after.relayAddr.isSome = true ↔
      e.after.state = .allocated ∨ e.after.state = .refreshing) ↔
    ∀ e ∈ trace (step env) (new config) calls, e.before.Consistent env e.call := by
  apply trace_invariant_iff (step env) (fun client call => client.Consistent env call) Tracks
  · exact fun client call tracks => tracks_step tracks call
  · exact iff_of_false Bool.false_ne_true (by simp [Live,new])

section Failures

variable (env : TurnEnv) (client : TurnClient) (sendTo : Except IceError Unit)

/-- A request that was attempted leaves its own mark when the transport refuses it. -/
theorem attempted_restores_iff {result : Except IceError Unit × TurnClient}
    {target : TurnState × Option TransactionId × Option SocketAddr}
    (attempted : result.1 = sendTo ∧ result.2.allocation = target) :
    (∀ e, result.1 = .error e → result.2.allocation = client.allocation) ↔
      sendTo = .ok () ∨ target = client.allocation := by
  rw [attempted.1,attempted.2]
  cases sendTo with
  | error e => exact ⟨fun restored => .inr (restored e rfl),fun same _ _ => same.resolve_left (nomatch ·)⟩
  | ok _ => exact iff_of_true (fun _ failed => (nomatch failed)) (.inl rfl)

theorem allocation_eq_iff (state : TurnState) (tid : TransactionId) :
    (state,some tid,client.relayAddr) = client.allocation ↔ client.state = state ∧ client.pendingTid = some tid := by
  simp only [allocation,Prod.mk.injEq,and_true,eq_comm]

/-- What a failed request leaves behind. An Allocate request restores the client only when the
transport takes it, or when it happens to be in the state and to wait for the id the request sets; a refresh
is restored when it is refused or taken, and goes out from `Allocated` only. -/
theorem failed_request_iff :
    ((∀ e, (client.startAllocate env sendTo).1 = .error e →
        (client.startAllocate env sendTo).2.allocation = client.allocation) ↔
      sendTo = .ok () ∨ client.state = .allocating ∧ client.pendingTid = some (env.tid client.drawn)) ∧
    ((∀ e, (client.sendAuthenticatedAllocate env sendTo).1 = .error e →
        (client.sendAuthenticatedAllocate env sendTo).2.allocation = client.allocation) ↔
      (client.Ready → sendTo = .ok () ∨
        client.state = .allocatingAuthenticated ∧ client.pendingTid = some (env.tid client.drawn))) ∧
    ((∀ e, (client.sendRefresh env sendTo).1 = .error e →
        (client.sendRefresh env sendTo).2.allocation = client.allocation) ↔
      (client.state = .allocated → client.Ready → sendTo = .ok ())) ∧
    ((client.sendRefresh env sendTo).1 = .ok () ↔ client.state = .allocated ∧ client.Ready ∧ sendTo = .ok ()) := by
  refine ⟨?_,?_,?_,?_⟩
  · rw [attempted_restores_iff client sendTo (client.startAllocate_spec env sendTo),allocation_eq_iff]
  · obtain ⟨attempted,refused⟩ := client.sendAuthenticatedAllocate_spec env sendTo
    by_cases ready : client.Ready
    · rw [attempted_restores_iff client sendTo (attempted ready),allocation_eq_iff]
      exact ⟨fun restored _ => restored,fun restored => restored ready⟩
    · exact iff_of_true (fun _ _ => (refused ready).2) (fun other => absurd other ready)
  · obtain ⟨attempted,refused⟩ := client.sendRefresh_spec env sendTo
    by_cases ready : client.state = .allocated ∧ client.Ready
    · rw [attempted_restores_iff client sendTo (attempted ready),allocation_eq_iff]
      have apart : ¬(client.state = .refreshing ∧ client.pendingTid = some (env.tid client.drawn)) := by
        simp [ready.1]
      exact ⟨fun restored _ _ => restored.resolve_right apart,fun taken => .inl (taken ready.1 ready.2)⟩
    · exact iff_of_true (fun _ _ => (refused ready).2) (fun allocated other => absurd ⟨allocated,other⟩ ready)
  · obtain ⟨attempted,refused⟩ := client.sendRefresh_spec env sendTo
    by_cases ready : client.state = .allocated ∧ client.Ready
    · rw [(attempted ready).1]
      exact ⟨fun taken => ⟨ready.1,ready.2,taken⟩,fun both => both.2.2⟩
    · exact iff_of_false (refused ready).1 (fun both => ready ⟨both.1,both.2.1⟩)

end Failures

def needsAllocation : TurnCall → Bool
  | .sendRefresh _ | .createPermission _ _ | .channelBind _ _ _ | .sendIndication _ _ _ => true
  | _ => false

theorem step_refreshing {env : TurnEnv} {client : TurnClient} (refreshing : client.state = .refreshing) {call : TurnCall}
    (needs : needsAllocation call = true) : (client.step env call).2 = client := by
  have idle : client.state ≠ .allocated := by simp [refreshing]
  cases call with
  | sendRefresh sendTo => simp [step,sendRefresh,idle]
  | createPermission peer sendTo => simp [step,createPermission,idle]
  | channelBind channel peer sendTo => simp [step,channelBind,idle]
  | sendIndication peer payload sendTo => simp [step,sendIndication,idle]
  | _ => cases needs

/-- Until a response comes or a new allocation is started, a client whose refresh was lost sends
nothing at all. -/
theorem lost_refresh_blocks (env : TurnEnv) (client : TurnClient) (refreshing : client.state = .refreshing)
    (calls : List TurnCall) (needs : ∀ call ∈ calls, needsAllocation call = true) :
    final (step env) client calls = client := by
  induction calls with
  | nil => rfl
  | cons call rest ih =>
    rw [List.forall_mem_cons] at needs
    rw [final,step_refreshing refreshing needs.1]
    exact ih needs.2

end Streamhaul.TurnClient

namespace Streamhaul.Transparent

def allocatedCycle : List TurnCall := challengeRound ++ [.handleIncoming (signedSuccess 1) 100 (.ok ())]

def refreshRejection : Bytes :=
  TurnMessage.encodeWithIntegrity turnEnv.suite ⟨methodRefresh,3,turnEnv.tid 2,[.errorCode 437 []]⟩ turnKey

def bareSuccess : Bytes := TurnMessage.encode ⟨methodAllocate,2,turnEnv.tid 0,[.lifetime 600]⟩

end Streamhaul.Transparent

namespace Streamhaul.TurnClient

open Machine Transparent

/-- A rejected refresh leaves the relay address of the expired allocation; a success without an
address leaves an allocation without one. -/
theorem relay_not_tracked :
    (final (step turnEnv) (new turnConfig)
      (allocatedCycle ++ [.sendRefresh (.ok ()),.handleIncoming refreshRejection 200 (.ok ())])).state = .expired ∧
    (final (step turnEnv) (new turnConfig)
      (allocatedCycle ++ [.sendRefresh (.ok ()),.handleIncoming refreshRejection 200 (.ok ())])).relayAddr =
      some (.v4 0x01020304 9) ∧
    (final (step turnEnv) (new turnConfig) [.startAllocate (.ok ()),.handleIncoming bareSuccess 100 (.ok ())]).state =
      .allocated ∧
    (final (step turnEnv) (new turnConfig) [.startAllocate (.ok ()),.handleIncoming bareSuccess 100 (.ok ())]).relayAddr =
      none := by
  decide +kernel

/-- A refresh the transport refuses, and one whose response is lost: in both cases no second refresh goes out. -/
theorem failed_refresh_not_repeated :
    (final (step turnEnv) (new turnConfig) allocatedCycle).state = .allocated ∧
    (final (step turnEnv) (new turnConfig) allocatedCycle).Ready ∧
    ((final (step turnEnv) (new turnConfig) allocatedCycle).sendRefresh turnEnv (.error (.transport "unreachable"))).1 =
      .error (.transport "unreachable") ∧
    ((final (step turnEnv) (new turnConfig) allocatedCycle).sendRefresh turnEnv
      (.error (.transport "unreachable"))).2.allocation =
      (.refreshing,some (turnEnv.tid 2),some (.v4 0x01020304 9)) ∧
    ∀ sendTo ∈ [Except.error (IceError.transport "unreachable"),.ok ()],
      (((final (step turnEnv) (new turnConfig) allocatedCycle).sendRefresh turnEnv sendTo).2.sendRefresh turnEnv (.ok ())).1 =
        .error (.checkFailed "TURN Refresh requires Allocated state") := by
  refine ⟨by decide +kernel,by decide +kernel,by decide +kernel,by decide +kernel,?_⟩
  rw [List.forall_mem_cons,List.forall_mem_singleton]
  exact ⟨by decide +kernel,by decide +kernel⟩

end Streamhaul.TurnClient
