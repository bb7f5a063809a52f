import Streamhaul.TurnReplay

/-! Allocation cycles of a TURN client: a request, the 401 to it, perhaps a 438, and a success.
The count of challenges is never taken back, so one client answers one challenge in its life. -/
namespace Streamhaul.TurnClient

open Machine

/-- The call brought a 401 or 438 to the pending Allocate request. -/
def Challenged (env : TurnEnv) (e : Event TurnClient TurnCall TurnResponse) : Prop :=
  ∃ raw ∈ e.call.datagram, ∃ msg, TurnMessage.decode env.suite raw = .ok msg ∧ msg.Challenges ∧
    e.before.isStale msg = false

/-- An error response to the Allocate request with this transaction id. -/
structure Refuses (env : TurnEnv) (raw : Bytes) (tid : TransactionId) (code : UInt16) (msg : TurnMessage) : Prop where
  decoded : TurnMessage.decode env.suite raw = .ok msg
  allocate : msg.method = methodAllocate
  failure : msg.class' = 3
  reason : msg.errorCode = some code
  answers : msg.transactionId = tid

/-- A success response to the Allocate request with this transaction id, signed with the key. -/
structure Grants (env : TurnEnv) (raw : Bytes) (tid : TransactionId) (key : Bytes) (msg : TurnMessage) : Prop where
  decoded : TurnMessage.decode env.suite raw = .ok msg
  allocate : msg.method = methodAllocate
  success : msg.class' = 2
  answers : msg.transactionId = tid
  signed : TurnMessage.verifyIntegrity env.suite raw key = .ok ()

/-- A request and the error responses to it and to the retries. -/
def cycle (challenges : List (Bytes × Int)) : List TurnCall :=
  .startAllocate (.ok ()) :: challenges.map fun challenge => .handleIncoming challenge.1 challenge.2 (.ok ())

/-- Every call succeeds, the last one sent an authenticated Allocate with the nonce, and each
correctly signed success response to it then allocates. -/
structure Reallocates (env : TurnEnv) (client : TurnClient) (calls : List TurnCall) (key nonce : Bytes) : Prop where
  answered : ∀ e ∈ trace (step env) client calls, e.response = .ok none
  authenticated : ∃ out tid, (final (step env) client calls).sent.getLast? = some out ∧ out.SignedRequest ∧
    out.key = some key ∧ out.message.nonce = some nonce ∧ out.message.transactionId = tid ∧
    (final (step env) client calls).pendingTid = some tid ∧
    ∀ raw msg now sendTo, Grants env raw tid key msg →
      ((final (step env) client calls).step env (.handleIncoming raw now sendTo)).2.state = .allocated

section Steps

variable {env : TurnEnv} {client : TurnClient} {raw : Bytes} {msg : TurnMessage}

theorem Refuses.challenges {tid : TransactionId} {code : UInt16} (refuses : Refuses env raw tid code msg)
    (kind : code = 401 ∨ code = 438) : msg.Challenges := by
  refine ⟨refuses.allocate,refuses.failure,?_⟩
  rw [refuses.reason]
  exact kind.imp (congrArg some) (congrArg some)

theorem accepts_challenge (decoded : TurnMessage.decode env.suite raw = .ok msg) (challenge : msg.Challenges)
    (fresh : client.isStale msg = false) : client.Accepts env raw msg := by
  refine ⟨decoded,fresh,?_⟩
  obtain ⟨_,failure,code | code⟩ := challenge
  · simp [isForged,TurnMessage.isAuthChallenge,failure,code]
  · simp [isForged,TurnMessage.isAuthChallenge,failure,code]

theorem isStale_pending {tid : TransactionId} (pending : client.pendingTid = some tid) (answers : msg.transactionId = tid) :
    client.isStale msg = false := by
  simp [isStale,pending,answers]

theorem step_challenge (now : Int) (sendTo : Except IceError Unit) (accepted : client.Accepts env raw msg)
    (challenge : msg.Challenges) :
    client.step env (.handleIncoming raw now sendTo) =
      if client.authAttempts = 0 then
        ((client.learn env msg).sendAuthenticatedAllocate env sendTo).map (·.map fun _ => none) id
      else (.error (.checkFailed "TURN auth failed: too many retries"),{ client with state := .expired }) := by
  show client.handleIncoming env now sendTo raw = _
  rw [handleIncoming_of_accepts now sendTo accepted,dispatch_allocate_error now sendTo challenge.1 challenge.2.1]
  exact onAllocateError_of_challenges sendTo challenge

theorem Requests.settings {after : TurnClient} (request : Requests env client after) :
    after.config = client.config ∧ after.authAttempts = client.authAttempts := by
  cases request <;> exact ⟨rfl,rfl⟩

theorem learn_settings : (client.learn env msg).config = client.config ∧
    (client.learn env msg).authAttempts = satAdd 255 client.authAttempts 1 := by
  unfold learn
  split
  · exact ⟨rfl,rfl⟩
  · exact ⟨rfl,rfl⟩

/-- No call changes the configuration, and only a challenge is counted. -/
theorem settings_step (call : TurnCall) : (client.step env call).2.config = client.config ∧
    (¬Challenged env (fire (step env) client call) →
      (client.step env call).2.authAttempts = client.authAttempts) := by
  have moved := client.step_moves env call
  unfold fire
  generalize client.step env call = result at *
  cases moved with
  | requests _ _ inside request => exact ⟨request.settings.1,fun _ => request.settings.2⟩
  | answers raw now sendTo _ answer =>
    cases answer with
    | ignored response => exact ⟨rfl,fun _ => rfl⟩
    | granted msg relay accepted success => exact ⟨rfl,fun _ => rfl⟩
    | rejected msg reason accepted failure => exact ⟨rfl,fun _ => rfl⟩
    | challenged msg accepted challenge first =>
      constructor
      · have requests := (client.learn env msg).sendAuthenticatedAllocate_requests env sendTo
        exact requests.settings.1.trans learn_settings.1
      · intro spared
        exact absurd ⟨raw,rfl,msg,accepted.decoded,challenge,accepted.fresh⟩ spared
  | expires => exact ⟨rfl,fun _ => rfl⟩

/-- The count leaves zero with the first challenge and never returns. -/
theorem authAttempts_step (call : TurnCall) :
    (client.step env call).2.authAttempts = 0 ↔
      client.authAttempts = 0 ∧ ¬Challenged env (fire (step env) client call) := by
  by_cases challenged : Challenged env (fire (step env) client call)
  · obtain ⟨raw,here,msg,decoded,challenge,fresh⟩ := challenged
    have count : (client.step env call).2.authAttempts ≠ 0 := by
      cases call with
      | handleIncoming bytes now sendTo =>
        cases here
        have accepted : client.Accepts env raw msg := accepts_challenge decoded challenge fresh
        rw [step_challenge now sendTo accepted challenge]
        by_cases first : client.authAttempts = 0
        · rw [if_pos first]
          show ((client.learn env msg).sendAuthenticatedAllocate env sendTo).2.authAttempts ≠ 0
          rw [((client.learn env msg).sendAuthenticatedAllocate_requests env sendTo).settings.2,
            learn_settings.2,first]
          decide
        · rw [if_neg first]
          exact first
      | _ => cases here
    constructor
    · exact fun zero => absurd zero count
    · rintro ⟨_,never⟩
      exact absurd ⟨raw,here,msg,decoded,challenge,fresh⟩ never
  · rw [(settings_step call).2 challenged]
    exact (and_iff_left challenged).symm

end Steps

theorem authAttempts_final (env : TurnEnv) (config : TurnConfig) (calls : List TurnCall) :
    (final (step env) (new config) calls).authAttempts = 0 ↔
      ∀ e ∈ trace (step env) (new config) calls, ¬Challenged env e := by
  have run := history_invariant (step env) some (fun _ _ => True)
    (fun history client => client.authAttempts = 0 ↔ ∀ e ∈ history, ¬Challenged env e)
    (fun history client call _ counts => by
      rw [authAttempts_step,counts,Option.toList_some,List.forall_mem_append,List.forall_mem_singleton])
    [] (new config) calls (by simp [new]) (fun _ _ => trivial)
  rwa [List.nil_append,List.filterMap_some] at run

theorem config_final (env : TurnEnv) (config : TurnConfig) (calls : List TurnCall) :
    (final (step env) (new config) calls).config = config := by
  apply final_invariant (step env) (fun _ _ => True) (fun client => client.config = config)
  · intro client call _ same
    rw [(settings_step call).1,same]
  · rfl
  · intro _ _
    trivial

section Cycle

variable {env : TurnEnv} {client : TurnClient} {raw : Bytes} {msg : TurnMessage} {tid : TransactionId}

theorem step_unauthorized (now : Int) {realm : Text} {nonce : Bytes}
    (pending : client.pendingTid = some tid) (unauthorized : Refuses env raw tid 401 msg) (known : msg.realm = some realm)
    (given : msg.nonce = some nonce) (first : client.authAttempts = 0) :
    client.step env (.handleIncoming raw now (.ok ())) =
      (.ok none,{ client with
        state := .allocatingAuthenticated, realm := some realm, nonce := some nonce
        ltKey := some (longTermKey env client.config.username realm client.config.password)
        pendingTid := some (env.tid client.drawn), authAttempts := 1, drawn := client.drawn + 1
        sent := client.sent ++ [⟨⟨methodAllocate,0,env.tid client.drawn,[.requestedTransport 17,
          .lifetime client.config.lifetimeSecs,.username client.config.username,.realm realm,.nonce nonce]⟩,
          some (longTermKey env client.config.username realm client.config.password)⟩] }) := by
  have challenge := unauthorized.challenges (.inl rfl)
  have accepted := accepts_challenge unauthorized.decoded challenge (isStale_pending pending unauthorized.answers)
  rw [step_challenge now (.ok ()) accepted challenge,if_pos first]
  have learned : client.learn env msg = { client with
      realm := some realm, nonce := some nonce, authAttempts := 1
      ltKey := some (longTermKey env client.config.username realm client.config.password) } := by
    simp [learn,learnChallenge,unauthorized.reason,known,given,first,satAdd]
  rw [learned]
  rfl

theorem step_grants (now : Int) (sendTo : Except IceError Unit) {key : Bytes}
    (pending : client.pendingTid = some tid) (known : client.ltKey = some key) (grants : Grants env raw tid key msg) :
    (client.step env (.handleIncoming raw now sendTo)).2.state = .allocated := by
  have accepted : client.Accepts env raw msg := by
    refine ⟨grants.decoded,isStale_pending pending grants.answers,?_⟩
    simp [isForged,known,grants.signed]
  show (client.handleIncoming env now sendTo raw).2.state = _
  rw [handleIncoming_of_accepts now sendTo accepted,dispatch_granted now sendTo grants.allocate grants.success]
  rfl

theorem step_rechallenged (now : Int) {code : UInt16} (pending : client.pendingTid = some tid)
    (refuses : Refuses env raw tid code msg) (kind : code = 401 ∨ code = 438) (counted : client.authAttempts ≠ 0) :
    (client.step env (.handleIncoming raw now (.ok ()))).1 = .error (.checkFailed "TURN auth failed: too many retries") := by
  have challenge := refuses.challenges kind
  have accepted := accepts_challenge refuses.decoded challenge (isStale_pending pending refuses.answers)
  rw [step_challenge now (.ok ()) accepted challenge,if_neg counted]

end Cycle

/-- A further cycle, with one 438 in it or none, is answered and can succeed exactly when no
challenge came before it and no 438 is in it. -/
theorem reallocates_iff (env : TurnEnv) (config : TurnConfig) (earlier : List TurnCall) (raw : Bytes) (now : Int)
    (msg : TurnMessage) (realm : Text) (nonce : Bytes) (stale : Option (Bytes × Int)) (refreshed : TurnMessage) (fresh : Bytes)
    (unauthorized : Refuses env raw (env.tid (final (step env) (new config) earlier).drawn) 401 msg)
    (known : msg.realm = some realm) (given : msg.nonce = some nonce)
    (staleNonce : ∀ answer ∈ stale,
      Refuses env answer.1 (env.tid ((final (step env) (new config) earlier).drawn + 1)) 438 refreshed ∧
        refreshed.nonce = some fresh) :
    Reallocates env (final (step env) (new config) earlier) (cycle ((raw,now) :: stale.toList))
        (longTermKey env config.username realm config.password) (stale.elim nonce fun _ => fresh) ↔
      (∀ e ∈ trace (step env) (new config) earlier, ¬Challenged env e) ∧ stale = none := by
  rw [← authAttempts_final]
  have configured := config_final env config earlier
  generalize final (step env) (new config) earlier = client at *
  subst configured
  let started := (client.step env (.startAllocate (.ok ()))).2
  have pending : started.pendingTid = some (env.tid client.drawn) := rfl
  have retries := step_unauthorized now pending unauthorized known given
  constructor
  · intro cycle
    have first : client.authAttempts = 0 := by
      by_contra counted
      have failed := step_rechallenged now pending unauthorized (.inl rfl) counted
      have fine := cycle.answered _ (List.mem_cons_of_mem _ List.mem_cons_self)
      cases failed.symm.trans fine
    refine ⟨first,?_⟩
    cases stale with
    | none => rfl
    | some answer =>
      have next : (started.step env (.handleIncoming raw now (.ok ()))).2.pendingTid = some (env.tid (client.drawn + 1)) := by
        rw [retries first]
        rfl
      have counted : (started.step env (.handleIncoming raw now (.ok ()))).2.authAttempts ≠ 0 := by
        rw [retries first]
        exact Nat.one_ne_zero
      have failed := step_rechallenged answer.2 next (staleNonce answer rfl).1 (.inr rfl) counted
      have fine := cycle.answered _ (List.mem_cons_of_mem _ (List.mem_cons_of_mem _ List.mem_cons_self))
      cases failed.symm.trans fine
  · rintro ⟨first,rfl⟩
    have retried := retries first
    have last : final (step env) client (cycle ((raw,now) :: none.toList)) =
        (started.step env (.handleIncoming raw now (.ok ()))).2 := rfl
    refine ⟨?_,?_⟩
    · intro e member
      rcases List.mem_cons.mp member with rfl | later
      · rfl
      · cases List.mem_singleton.mp later
        exact congrArg Prod.fst retried
    · rw [last,retried]
      refine ⟨_,_,List.getLast?_concat,⟨.inl rfl,rfl,rfl⟩,rfl,rfl,rfl,rfl,?_⟩
      intro answer success later sendTo grants
      exact step_grants later sendTo rfl rfl grants

end Streamhaul.TurnClient

namespace Streamhaul.Transparent

def unauthorizedMessage (i : Nat) : TurnMessage := ⟨methodAllocate,3,turnEnv.tid i,[.errorCode 401 [],.realm [],.nonce [5]]⟩

/-- A cycle with a server that asks for no credentials. -/
def openCycle : List TurnCall :=
  [.startAllocate (.ok ()),.handleIncoming (allocateSuccess 0).encode 100 (.ok ()),.markExpired]

def staleNonce (i : Nat) : Bytes :=
  TurnMessage.encode ⟨methodAllocate,3,turnEnv.tid i,[.errorCode 438 [],.nonce [6]]⟩

end Streamhaul.Transparent

namespace Streamhaul.TurnClient

open Machine Transparent

theorem first_cycle_reallocates :
    (final (step turnEnv) (new turnConfig) openCycle).state = .expired ∧
    Reallocates turnEnv (final (step turnEnv) (new turnConfig) openCycle) (cycle [(unauthorized 1,900)]) turnKey [5] ∧
    (final (step turnEnv) (new turnConfig) (openCycle ++ cycle [(unauthorized 1,900)] ++
      [.handleIncoming (signedSuccess 2) 900 (.ok ())])).state = .allocated := by
  have drawn : (final (step turnEnv) (new turnConfig) openCycle).drawn = 1 := by
    decide +kernel
  have challenge : Refuses turnEnv (unauthorized 1) (turnEnv.tid 1) 401 (unauthorizedMessage 1) :=
    ⟨by decide +kernel,rfl,rfl,rfl,rfl⟩
  refine ⟨by decide +kernel,?_,by decide +kernel⟩
  apply (reallocates_iff turnEnv turnConfig openCycle (unauthorized 1) 900 (unauthorizedMessage 1) [] [5] none
    (unauthorizedMessage 1) [] (drawn.symm ▸ challenge) rfl rfl ?_).mpr
  · refine ⟨?_,rfl⟩
    rw [← authAttempts_final]
    decide +kernel
  · intro answer member
    cases member

/-- The 401 of a second cycle, and a 438 in the first one, are answered with an error. -/
theorem second_challenge_rejected :
    ((final (step turnEnv) (new turnConfig) (expiredCycle ++ [.startAllocate (.ok ())])).step turnEnv
      (.handleIncoming (unauthorized 2) 900 (.ok ()))).1 =
        .error (.checkFailed "TURN auth failed: too many retries") ∧
    ((final (step turnEnv) (new turnConfig) challengeRound).step turnEnv (.handleIncoming (staleNonce 1) 100 (.ok ()))).1 =
        .error (.checkFailed "TURN auth failed: too many retries") := by
  decide +kernel

end Streamhaul.TurnClient
