import Streamhaul.TurnResponses

/-! How often a response moves a TURN client. The pending transaction id outlives the response
to it, so a client takes each response once only where responses reach it while it waits. -/
namespace Streamhaul.TurnClient

open Machine

def answered (env : TurnEnv) (e : Event TurnClient TurnCall TurnResponse) : Option TransactionId :=
  match e.call.datagram with
  | none => none
  | some raw =>
    match TurnMessage.decode env.suite raw with
    | .error _ => none
    | .ok msg => if msg.isResponse = true ∧ e.after ≠ e.before then some msg.transactionId else none

/-- A response that passes the checks comes while a request that went out is unanswered; a 401
has realm and nonce, and a 438 comes after the client has a key. -/
def Awaited (env : TurnEnv) (client : TurnClient) (call : TurnCall) : Prop :=
  match call.datagram with
  | none => True
  | some raw =>
    match TurnMessage.decode env.suite raw with
    | .error _ => True
    | .ok msg => msg.isResponse = true → client.isStale msg = false → client.isForged env raw msg = false →
      client.Waits ∧ (∃ out ∈ client.sent, client.pendingTid = some out.message.transactionId) ∧
        (msg.errorCode = some 401 → msg.realm.isSome ∧ msg.nonce.isSome) ∧
        (msg.errorCode = some 438 → client.ltKey.isSome)

instance (env : TurnEnv) (client : TurnClient) (call : TurnCall) : Decidable (client.Awaited env call) := by
  unfold Awaited
  split
  · infer_instance
  · split
    · infer_instance
    · infer_instance

theorem Awaited.accepted {env : TurnEnv} {client : TurnClient} {raw : Bytes} {now : Int} {sendTo : Except IceError Unit}
    {msg : TurnMessage} (awaited : client.Awaited env (.handleIncoming raw now sendTo)) (accepted : client.Accepts env raw msg)
    (response : msg.isResponse = true) :
    client.Waits ∧ (∃ out ∈ client.sent, client.pendingTid = some out.message.transactionId) ∧
      (msg.errorCode = some 401 → msg.realm.isSome ∧ msg.nonce.isSome) ∧
      (msg.errorCode = some 438 → client.ltKey.isSome) := by
  simp only [Awaited,TurnCall.datagram,accepted.decoded] at awaited
  exact awaited response accepted.fresh accepted.genuine

/-- The ids of the responses taken so far are distinct and were drawn. -/
structure Issued (env : TurnEnv) (history : List TransactionId) (drawn : Nat) : Prop where
  once : history.Nodup
  below : ∀ tid ∈ history, ∃ j < drawn, tid = env.tid j

section Issued

variable {env : TurnEnv} {history : List TransactionId} {drawn later : Nat}

theorem Issued.mono (issued : Issued env history drawn) (grows : drawn ≤ later) : Issued env history later := by
  refine ⟨issued.once,?_⟩
  intro tid member
  obtain ⟨j,below,id⟩ := issued.below tid member
  exact ⟨j,below.trans_le grows,id⟩

theorem Issued.concat (issued : Issued env history drawn) {tid : TransactionId} (new : tid ∉ history)
    (known : ∃ j < drawn, tid = env.tid j) : Issued env (history ++ [tid]) drawn := by
  refine ⟨?_,forall_mem_concat issued.below known⟩
  apply List.Nodup.append issued.once (List.nodup_singleton tid)
  exact List.disjoint_singleton.mpr new

theorem tid_fresh (distinct : Set.InjOn env.tid (Set.Iio later)) (room : drawn < later) {tid : TransactionId}
    (known : ∃ j < drawn, tid = env.tid j) : env.tid drawn ≠ tid := by
  obtain ⟨j,below,rfl⟩ := known
  intro same
  exact absurd (distinct room (below.trans room) same) below.ne'

theorem Issued.fresh (issued : Issued env history drawn) (distinct : Set.InjOn env.tid (Set.Iio later))
    (room : drawn < later) : env.tid drawn ∉ history := by
  intro member
  exact tid_fresh distinct room (issued.below _ member) rfl

end Issued

/-- A client that waits has not yet taken a response to the request it waits for. -/
structure Answered (env : TurnEnv) (history : List TransactionId) (client : TurnClient) : Prop where
  kept : Kept env client
  issued : Issued env history client.drawn
  unanswered : client.Waits → ∀ tid, client.pendingTid = some tid → tid ∉ history

section Steps

variable {env : TurnEnv} {history : List TransactionId} {client after : TurnClient}

theorem answered_new (env : TurnEnv) (config : TurnConfig) : Answered env [] (new config) := by
  refine ⟨kept_new env config,⟨List.nodup_nil,?_⟩,?_⟩
  · intro tid member
    cases member
  · intro _ tid _ member
    cases member

theorem Answered.requests (answered : Answered env history client) (request : Requests env client after)
    (distinct : Set.InjOn env.tid (Set.Iio after.drawn)) : Answered env history after := by
  refine ⟨answered.kept.requests request,answered.issued.mono request.grows.1,?_⟩
  cases request with
  | refused => exact answered.unanswered
  | unsent state awaited =>
    rintro _ tid ⟨⟩
    exact answered.issued.fresh distinct (Nat.lt_succ_self _)
  | awaited state message key awaited id signed =>
    rintro _ tid ⟨⟩
    exact answered.issued.fresh distinct (Nat.lt_succ_self _)
  | lost => exact answered.unanswered
  | aside message key id other => exact answered.unanswered

/-- An accepted response that is awaited carries a new id. -/
theorem Answered.taken (answered : Answered env history client) {raw : Bytes} {now : Int} {sendTo : Except IceError Unit}
    {msg : TurnMessage} (awaited : client.Awaited env (.handleIncoming raw now sendTo)) (accepted : client.Accepts env raw msg)
    (response : msg.isResponse = true) : Issued env (history ++ [msg.transactionId]) client.drawn := by
  obtain ⟨waits,⟨out,member,pending⟩,_⟩ := awaited.accepted accepted response
  have id := accepted.solicited response pending
  rw [id]
  exact answered.issued.concat (answered.unanswered waits _ pending) (answered.kept.drawn out member)

/-- An awaited challenge leaves the client with all it needs to answer. -/
theorem challenge_answered (kept : Kept env client) {raw : Bytes} {now : Int} {sendTo : Except IceError Unit}
    {msg : TurnMessage} (awaited : client.Awaited env (.handleIncoming raw now sendTo)) (accepted : client.Accepts env raw msg)
    (challenge : msg.Challenges) :
    ((client.learn env msg).sendAuthenticatedAllocate env sendTo).2.pendingTid = some (env.tid client.drawn) ∧
      ((client.learn env msg).sendAuthenticatedAllocate env sendTo).2.drawn = client.drawn + 1 := by
  obtain ⟨_,_,unauthorized,stale⟩ := awaited.accepted accepted (isResponse_of_failure challenge.2.1)
  obtain ⟨_,_,_,_,drawn,_⟩ := client.learn_frame env msg
  have keyed : (client.learn env msg).ltKey.isSome := by
    unfold learn
    split
    case isTrue code =>
      obtain ⟨realm,nonce⟩ := unauthorized code
      obtain ⟨r,known⟩ := Option.isSome_iff_exists.mp realm
      obtain ⟨n,given⟩ := Option.isSome_iff_exists.mp nonce
      simp [learnChallenge,known,given]
    case isFalse code =>
      exact stale (challenge.2.2.resolve_left code)
  have known := (kept.learn msg).known keyed
  rcases (client.learn env msg).sendAuthenticatedAllocate_cases env sendTo with ⟨missing,_⟩ | ⟨realm,nonce,ltKey,_,_,_,sends⟩
  · rcases missing with absent | absent | absent
    all_goals simp [absent] at known keyed
  · rw [sends,drawn]
    cases sendTo with
    | error e => exact ⟨rfl,rfl⟩
    | ok taken => exact ⟨rfl,rfl⟩

theorem Answered.answers {raw : Bytes} {now : Int} {sendTo : Except IceError Unit} {result : TurnResponse × TurnClient}
    (answered' : Answered env history client) (awaited : client.Awaited env (.handleIncoming raw now sendTo))
    (answer : Answers env client raw now sendTo result) (distinct : Set.InjOn env.tid (Set.Iio result.2.drawn)) :
    Answered env (history ++ (answered env ⟨client,.handleIncoming raw now sendTo,result.1,result.2⟩).toList) result.2 := by
  by_cases same : result.2 = client
  · have none' : answered env ⟨client,.handleIncoming raw now sendTo,result.1,result.2⟩ = none := by
      unfold answered
      dsimp only [TurnCall.datagram]
      split
      · rfl
      · exact if_neg (fun changed => changed.2 same)
    rw [none',same]
    simpa using answered'
  have emits : ∀ msg, client.Accepts env raw msg → msg.isResponse = true →
      answered env ⟨client,.handleIncoming raw now sendTo,result.1,result.2⟩ = some msg.transactionId := by
    intro msg accepted response
    simp [answered,TurnCall.datagram,accepted.decoded,response,same]
  have kept := answered'.kept.answers answer
  cases answer with
  | ignored response => exact absurd rfl same
  | granted msg relay accepted success =>
    rw [emits msg accepted (isResponse_of_success success)]
    refine ⟨kept,answered'.taken awaited accepted (isResponse_of_success success),?_⟩
    exact fun waits => absurd rfl waits.not_allocated
  | rejected msg reason accepted failure =>
    rw [emits msg accepted (isResponse_of_failure failure)]
    refine ⟨kept,answered'.taken awaited accepted (isResponse_of_failure failure),?_⟩
    exact fun waits => absurd waits (not_waits_of_expired rfl)
  | challenged msg accepted challenge first =>
    have response := isResponse_of_failure challenge.2.1
    rw [emits msg accepted response]
    have taken := answered'.taken awaited accepted response
    obtain ⟨pending,moved⟩ := challenge_answered answered'.kept awaited accepted challenge
    refine ⟨kept,taken.mono (moved ▸ Nat.le_succ _),?_⟩
    intro _ tid here
    cases pending.symm.trans here
    exact taken.fresh distinct (moved ▸ Nat.lt_succ_self _)

/-- A call is admitted when it brings an awaited response, if any, and draws a new id, if any. -/
def Admitted (env : TurnEnv) (client : TurnClient) (call : TurnCall) : Prop :=
  client.Awaited env call ∧ Set.InjOn env.tid (Set.Iio (client.step env call).2.drawn)

theorem answered_step (answered' : Answered env history client) (call : TurnCall) (admitted : client.Admitted env call) :
    Answered env (history ++ (answered env (fire (step env) client call)).toList) (client.step env call).2 := by
  obtain ⟨awaited,distinct⟩ := admitted
  have moved := client.step_moves env call
  unfold fire
  generalize client.step env call = result at *
  cases moved with
  | requests _ _ inside request =>
    have silent : answered env ⟨client,call,result.1,result.2⟩ = none := by
      simp [answered,inside]
    rw [silent,Option.toList_none,List.append_nil]
    exact answered'.requests request distinct
  | answers raw now sendTo _ answer => exact answered'.answers awaited answer distinct
  | expires =>
    have silent : answered env ⟨client,.markExpired,.ok none,client.markExpired⟩ = none := rfl
    rw [silent,Option.toList_none,List.append_nil]
    refine ⟨{ answered'.kept with },answered'.issued,?_⟩
    exact fun waits => absurd waits (not_waits_of_expired rfl)

theorem drawn_step (client : TurnClient) (call : TurnCall) :
    client.drawn ≤ (client.step env call).2.drawn ∧ client.sent <+: (client.step env call).2.sent := by
  have moved := client.step_moves env call
  generalize client.step env call = result at *
  cases moved with
  | requests _ _ inside request => exact request.grows
  | answers raw now sendTo _ answer =>
    cases answer with
    | ignored response => exact ⟨le_rfl,List.prefix_rfl⟩
    | granted msg relay accepted success => exact ⟨le_rfl,List.prefix_rfl⟩
    | rejected msg reason accepted failure => exact ⟨le_rfl,List.prefix_rfl⟩
    | challenged msg accepted challenge first =>
      obtain ⟨_,_,_,_,drawn,sent⟩ := client.learn_frame env msg
      have grows := ((client.learn env msg).sendAuthenticatedAllocate_requests env sendTo).grows
      rwa [drawn,sent] at grows
  | expires => exact ⟨le_rfl,List.prefix_rfl⟩

end Steps

section Runs

variable {env : TurnEnv} {start : TurnClient} {calls : List TurnCall} {client : TurnClient} {sent : List Outgoing}

/-- Along a run whose ids are distinct every call is admitted once its responses are awaited. -/
theorem admitted_of_awaited (distinct : Set.InjOn env.tid (Set.Iio (final (step env) start calls).drawn))
    (awaited : ∀ e ∈ trace (step env) start calls, e.before.Awaited env e.call) :
    ∀ e ∈ trace (step env) start calls, e.before.Admitted env e.call := by
  intro e member
  obtain ⟨_,bounds⟩ := le_final_of_mem_trace (step env) (fun _ => True) TurnClient.drawn (fun _ _ _ => trivial)
    (fun client call _ => (drawn_step client call).1) start calls trivial
  obtain ⟨_,fired⟩ := trace_invariant (step env) (fun _ _ => True) (fun _ => True) (fun _ _ _ _ => trivial) start calls
    trivial (fun _ _ => trivial) e member
  refine ⟨awaited e member,distinct.mono ?_⟩
  have bound := (bounds e member).2
  rw [fired] at bound
  exact Set.Iio_subset_Iio bound

/-- After an expiry nothing is allocated, and no response awaited, until a request goes out. -/
structure Lapsed (env : TurnEnv) (sent : List Outgoing) (client : TurnClient) : Prop where
  kept : Kept env client
  grows : sent <+: client.sent
  idle : client.sent = sent → client.state ≠ .allocated
  silent : client.sent = sent → client.Waits → ∀ out ∈ client.sent, client.pendingTid ≠ some out.message.transactionId

theorem lapsed_markExpired (kept : Kept env client) : Lapsed env client.sent client.markExpired := by
  refine ⟨{ kept with },List.prefix_rfl,fun _ => ?_,fun _ waits => ?_⟩
  · intro allocated
    cases allocated
  · exact absurd waits (not_waits_of_expired rfl)

theorem Lapsed.requests {client after : TurnClient} (lapsed : Lapsed env sent client)
    (request : Requests env client after) (distinct : Set.InjOn env.tid (Set.Iio after.drawn)) : Lapsed env sent after := by
  have longer : ∀ out : Outgoing, client.sent ++ [out] ≠ sent := by
    intro out same
    have short := lapsed.grows.length_le
    rw [← same,List.length_append,List.length_singleton] at short
    omega
  have settled := lapsed.kept.requests request
  have grows := lapsed.grows.trans request.grows.2
  cases request with
  | refused => exact lapsed
  | unsent state awaited =>
    refine ⟨settled,grows,fun _ => awaited.not_allocated,fun _ _ out member pending => ?_⟩
    exact tid_fresh distinct (Nat.lt_succ_self _) (lapsed.kept.drawn out member) (Option.some.inj pending)
  | awaited state message key awaited id signed =>
    exact ⟨settled,grows,fun same => absurd same (longer _),fun same => absurd same (longer _)⟩
  | lost => exact ⟨settled,grows,lapsed.idle,lapsed.silent⟩
  | aside message key id other =>
    exact ⟨settled,grows,fun same => absurd same (longer _),fun same => absurd same (longer _)⟩

theorem Lapsed.unaccepted (lapsed : Lapsed env sent client)
    (same : client.sent = sent) {raw : Bytes} {now : Int} {sendTo : Except IceError Unit} {msg : TurnMessage}
    (awaited : client.Awaited env (.handleIncoming raw now sendTo)) (accepted : client.Accepts env raw msg) :
    msg.isResponse ≠ true := by
  intro response
  obtain ⟨waits,⟨out,member,pending⟩,_⟩ := awaited.accepted accepted response
  exact lapsed.silent same waits out member pending

theorem Lapsed.answers (lapsed : Lapsed env sent client) {raw : Bytes}
    {now : Int} {sendTo : Except IceError Unit} {result : TurnResponse × TurnClient} (same : client.sent = sent)
    (awaited : client.Awaited env (.handleIncoming raw now sendTo)) (answer : Answers env client raw now sendTo result) :
    result.2 = client := by
  cases answer with
  | ignored response => rfl
  | granted msg relay accepted success =>
    exact absurd (isResponse_of_success success) (lapsed.unaccepted same awaited accepted)
  | rejected msg reason accepted failure =>
    exact absurd (isResponse_of_failure failure) (lapsed.unaccepted same awaited accepted)
  | challenged msg accepted challenge first =>
    exact absurd (isResponse_of_failure challenge.2.1) (lapsed.unaccepted same awaited accepted)

theorem lapsed_step (lapsed : Lapsed env sent client) (call : TurnCall)
    (admitted : client.Admitted env call) : Lapsed env sent (client.step env call).2 := by
  obtain ⟨awaited,distinct⟩ := admitted
  have moved := client.step_moves env call
  have kept := kept_step lapsed.kept call
  have grown := (@drawn_step env client call).2
  generalize client.step env call = result at *
  cases moved with
  | requests _ _ inside request => exact lapsed.requests request distinct
  | answers raw now sendTo _ answer =>
    have before : result.2.sent = sent → client.sent = sent := by
      intro same
      exact (List.IsPrefix.eq_of_length_le lapsed.grows (same ▸ grown.length_le)).symm
    refine ⟨kept,lapsed.grows.trans grown,fun same => ?_,fun same => ?_⟩
    · rw [lapsed.answers (before same) awaited answer]
      exact lapsed.idle (before same)
    · rw [lapsed.answers (before same) awaited answer]
      exact lapsed.silent (before same)
  | expires =>
    have expired := lapsed_markExpired lapsed.kept
    exact ⟨kept,lapsed.grows,fun _ => expired.idle rfl,fun _ => expired.silent rfl⟩

end Runs

/-- Where responses are awaited, at most one response with a given transaction id changes the
client, and an expired client is not allocated again before it sends something. -/
theorem response_taken_once (env : TurnEnv) (config : TurnConfig) (calls : List TurnCall)
    (distinct : Set.InjOn env.tid (Set.Iio (final (step env) (new config) calls).drawn))
    (awaited : ∀ e ∈ trace (step env) (new config) calls, e.before.Awaited env e.call) :
    (∀ tid, (trace (step env) (new config) calls).countP (fun e => answered env e = some tid) ≤ 1) ∧
    ∀ earlier later, calls = earlier ++ .markExpired :: later →
      (final (step env) (new config) calls).sent = (final (step env) (new config) earlier).sent →
      (final (step env) (new config) calls).state ≠ .allocated := by
  have admitted := admitted_of_awaited distinct awaited
  constructor
  · intro tid
    have run := history_invariant (step env) (answered env) (Admitted env) (Answered env)
      (fun history client call allowed kept => answered_step kept call allowed) [] (new config) calls
      (answered_new env config) admitted
    have once := run.issued.once
    rw [List.nil_append] at once
    have bound := List.nodup_iff_count_le_one.mp once tid
    rw [List.count_filterMap] at bound
    simpa only [beq_eq_decide] using bound
  · rintro earlier later rfl same
    rw [trace_append] at admitted
    rw [final_append] at same ⊢
    have kept := kept_final env config earlier
    generalize final (step env) (new config) earlier = client at *
    have lapsed : Lapsed env client.sent (final (step env) client.markExpired later) := by
      apply final_invariant (step env) (Admitted env) (Lapsed env client.sent)
      · intro _ call allowed lapsed
        exact lapsed_step lapsed call allowed
      · exact lapsed_markExpired kept
      · intro e member
        exact admitted e (List.mem_append_right _ (List.mem_cons_of_mem _ member))
    exact lapsed.idle same

end Streamhaul.TurnClient

namespace Streamhaul.Transparent

def expiredCycle : List TurnCall := challengeRound ++ [.handleIncoming (signedSuccess 1) 100 (.ok ()),.markExpired]

def replayedCycle : List TurnCall := expiredCycle ++ [.handleIncoming (signedSuccess 1) 900 (.ok ())]

end Streamhaul.Transparent

namespace Streamhaul.TurnClient

open Machine Transparent

theorem cycle_taken_once :
    (trace (step turnEnv) (new turnConfig) expiredCycle).countP (fun e => answered turnEnv e = some (turnEnv.tid 1)) ≤ 1 ∧
    (final (step turnEnv) (new turnConfig) expiredCycle).state ≠ .allocated := by
  have drawn : (final (step turnEnv) (new turnConfig) expiredCycle).drawn = 2 := by
    decide +kernel
  have distinct : ∀ i < 2, ∀ j < 2, turnEnv.tid i = turnEnv.tid j → i = j := by
    decide
  have cycle := response_taken_once turnEnv turnConfig expiredCycle
    (by rw [drawn]; exact fun i first j second same => distinct i first j second same) (by decide +kernel)
  refine ⟨cycle.1 _,cycle.2 (challengeRound ++ [.handleIncoming (signedSuccess 1) 100 (.ok ())]) [] rfl ?_⟩
  decide +kernel

/-- The success response delivered again takes an expired client back to `Allocated`. -/
theorem replayed_success_reallocates :
    (final (step turnEnv) (new turnConfig) expiredCycle).state = .expired ∧
    (final (step turnEnv) (new turnConfig) replayedCycle).state = .allocated ∧
    (final (step turnEnv) (new turnConfig) replayedCycle).sent = (final (step turnEnv) (new turnConfig) expiredCycle).sent ∧
    (trace (step turnEnv) (new turnConfig) replayedCycle).countP
      (fun e => answered turnEnv e = some (turnEnv.tid 1)) = 2 := by
  decide +kernel

end Streamhaul.TurnClient
