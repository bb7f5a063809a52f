import Streamhaul.TurnMoves

/-! Which responses a TURN client acts on: what an allocation rests on, and how often one
transaction id can move the client. -/
namespace Streamhaul.TurnClient

open Machine

/-- The call set the relay address or the expiry, or moved the client to `Allocated`. -/
def Extends (before after : TurnClient) : Prop :=
  after.relayAddr ≠ before.relayAddr ∨ after.expiresAt ≠ before.expiresAt ∨
    (before.state ≠ .allocated ∧ after.state = .allocated)

instance (before after : TurnClient) : Decidable (Extends before after) := by
  unfold Extends
  infer_instance

/-- A success response to a signed Allocate or Refresh request, itself signed with the client's key. -/
def Authentic (env : TurnEnv) (client : TurnClient) (raw : Bytes) : Prop :=
  ∃ msg, TurnMessage.decode env.suite raw = .ok msg ∧ msg.class' = 2 ∧
    (∃ out ∈ client.sent, out.SignedRequest ∧ out.message.transactionId = msg.transactionId) ∧
    ∃ key, client.ltKey = some key ∧ TurnMessage.verifyIntegrity env.suite raw key = .ok ()

section Accepted

variable {env : TurnEnv} {client : TurnClient} {raw : Bytes} {msg : TurnMessage}

theorem Accepts.solicited (accepted : client.Accepts env raw msg) (response : msg.isResponse = true) {tid : TransactionId}
    (pending : client.pendingTid = some tid) : msg.transactionId = tid := by
  have fresh := accepted.fresh
  simpa [isStale,response,pending] using fresh

theorem Accepts.verified (accepted : client.Accepts env raw msg) (success : msg.class' = 2) {key : Bytes}
    (known : client.ltKey = some key) : TurnMessage.verifyIntegrity env.suite raw key = .ok () := by
  have genuine := accepted.genuine
  simpa [isForged,TurnMessage.isAuthChallenge,TurnMessage.isIndication,success,known] using genuine

theorem isResponse_of_success (success : msg.class' = 2) : msg.isResponse = true := by
  simp [TurnMessage.isResponse,success]

theorem isResponse_of_failure (failure : msg.class' = 3) : msg.isResponse = true := by
  simp [TurnMessage.isResponse,failure]

end Accepted

section Frames

variable {env : TurnEnv} {client after : TurnClient}

theorem Requests.frame (request : Requests env client after) :
    after.relayAddr = client.relayAddr ∧ after.expiresAt = client.expiresAt ∧
      (after.state = client.state ∨ after.Waits) := by
  cases request with
  | refused => exact ⟨rfl,rfl,.inl rfl⟩
  | unsent state awaited => exact ⟨rfl,rfl,.inr awaited⟩
  | awaited state message key awaited id signed => exact ⟨rfl,rfl,.inr awaited⟩
  | lost => exact ⟨rfl,rfl,.inl rfl⟩
  | aside message key id other => exact ⟨rfl,rfl,.inl rfl⟩

theorem Requests.grows (request : Requests env client after) : client.drawn ≤ after.drawn ∧ client.sent <+: after.sent := by
  cases request with
  | refused => exact ⟨le_rfl,List.prefix_rfl⟩
  | unsent state awaited => exact ⟨Nat.le_succ _,List.prefix_rfl⟩
  | awaited state message key awaited id signed => exact ⟨Nat.le_succ _,List.prefix_append _ _⟩
  | lost => exact ⟨Nat.le_succ _,List.prefix_rfl⟩
  | aside message key id other => exact ⟨Nat.le_succ _,List.prefix_append _ _⟩

theorem Waits.not_allocated (waits : client.Waits) : client.state ≠ .allocated := by
  intro allocated
  simp [Waits,allocated] at waits

theorem not_waits_of_expired (expired : client.state = .expired) : ¬client.Waits := by
  simp [Waits,expired]

variable (env client) in
theorem learn_frame (msg : TurnMessage) :
    (client.learn env msg).state = client.state ∧ (client.learn env msg).relayAddr = client.relayAddr ∧
      (client.learn env msg).expiresAt = client.expiresAt ∧ (client.learn env msg).pendingTid = client.pendingTid ∧
      (client.learn env msg).drawn = client.drawn ∧ (client.learn env msg).sent = client.sent := by
  unfold learn
  split
  · exact ⟨rfl,rfl,rfl,rfl,rfl,rfl⟩
  · exact ⟨rfl,rfl,rfl,rfl,rfl,rfl⟩

theorem Answers.extended {raw : Bytes} {now : Int} {sendTo : Except IceError Unit} {result : TurnResponse × TurnClient}
    (answer : Answers env client raw now sendTo result) (extended : Extends client result.2) :
    ∃ msg, client.Accepts env raw msg ∧ msg.class' = 2 := by
  cases answer with
  | ignored response => simp [Extends] at extended
  | granted msg relay accepted success => exact ⟨msg,accepted,success⟩
  | rejected msg reason accepted failure => simp [Extends] at extended
  | challenged msg accepted challenge first =>
    obtain ⟨state,relay,expiry,_⟩ := client.learn_frame env msg
    have frame := ((client.learn env msg).sendAuthenticatedAllocate_requests env sendTo).frame
    rw [state,relay,expiry] at frame
    obtain ⟨sameRelay,sameExpiry,next⟩ := frame
    rcases extended with changed | changed | ⟨idle,allocated⟩
    · exact absurd sameRelay changed
    · exact absurd sameExpiry changed
    · rcases next with same | waits
      · exact absurd (same.symm.trans allocated) idle
      · exact absurd allocated waits.not_allocated

end Frames

/-- What the requests of a client leave behind: the pending id and the key belong to requests that
went out, and the ids of these were drawn. -/
structure Kept (env : TurnEnv) (client : TurnClient) : Prop where
  pending : client.pendingTid = none →
    ∀ out ∈ client.sent, out.message.method ≠ methodAllocate ∧ out.message.method ≠ methodRefresh
  keyed : ∀ out ∈ client.sent, out.SignedRequest → client.ltKey.isSome
  known : client.ltKey.isSome → client.realm.isSome ∧ client.nonce.isSome
  drawn : ∀ out ∈ client.sent, ∃ j < client.drawn, out.message.transactionId = env.tid j

section Kept

variable {env : TurnEnv} {client after : TurnClient}

theorem kept_new (env : TurnEnv) (config : TurnConfig) : Kept env (new config) := by
  constructor
  · intro _ out member
    cases member
  · intro out member
    cases member
  · intro known
    cases known
  · intro out member
    cases member

theorem Kept.learn (kept : Kept env client) (msg : TurnMessage) : Kept env (client.learn env msg) := by
  obtain ⟨_,_,_,pending,drawn,sent⟩ := client.learn_frame env msg
  have grows : client.ltKey.isSome → (client.learn env msg).ltKey.isSome := by
    intro key
    unfold TurnClient.learn
    split
    · unfold learnChallenge
      dsimp only
      split
      · rfl
      · exact key
    · exact key
  refine ⟨?_,?_,?_,?_⟩
  · rw [pending,sent]
    exact kept.pending
  · rw [sent]
    exact fun out member signed => grows (kept.keyed out member signed)
  · unfold TurnClient.learn
    split
    · unfold learnChallenge
      dsimp only
      cases realm : msg.realm.or client.realm with
      | none =>
        intro key
        have old := (kept.known key).1
        simp_all
      | some r =>
        cases nonce : msg.nonce.or client.nonce with
        | none =>
          intro key
          have old := (kept.known key).2
          simp_all
        | some n => exact fun _ => ⟨rfl,rfl⟩
    · intro key
      obtain ⟨realm,nonce⟩ := kept.known key
      refine ⟨realm,?_⟩
      simp [learnNonce,nonce]
  · rw [sent,drawn]
    exact kept.drawn

theorem Kept.requests (kept : Kept env client) (request : Requests env client after) : Kept env after := by
  have later : ∀ out ∈ client.sent, ∃ j < client.drawn + 1, out.message.transactionId = env.tid j := by
    intro out member
    obtain ⟨j,below,id⟩ := kept.drawn out member
    exact ⟨j,Nat.lt_succ_of_lt below,id⟩
  cases request with
  | refused => exact kept
  | unsent state awaited =>
    refine ⟨?_,kept.keyed,kept.known,later⟩
    intro absent
    cases absent
  | awaited state message key awaited id signed =>
    refine ⟨?_,?_,kept.known,?_⟩
    · intro absent
      cases absent
    · exact forall_mem_concat kept.keyed (fun request => signed request.2.2)
    · exact forall_mem_concat later ⟨client.drawn,Nat.lt_succ_self _,id⟩
  | lost => exact ⟨kept.pending,kept.keyed,kept.known,later⟩
  | aside message key id other =>
    refine ⟨?_,?_,kept.known,?_⟩
    · exact fun absent => forall_mem_concat (kept.pending absent) other
    · apply forall_mem_concat kept.keyed
      rintro ⟨allocate | refresh,_⟩
      · exact absurd allocate other.1
      · exact absurd refresh other.2
    · exact forall_mem_concat later ⟨client.drawn,Nat.lt_succ_self _,id⟩

theorem Kept.answers {raw : Bytes} {now : Int} {sendTo : Except IceError Unit} {result : TurnResponse × TurnClient}
    (kept : Kept env client) (answer : Answers env client raw now sendTo result) : Kept env result.2 := by
  cases answer with
  | ignored response => exact kept
  | granted msg relay accepted success => exact { kept with }
  | rejected msg reason accepted failure => exact { kept with }
  | challenged msg accepted challenge first =>
    exact (kept.learn msg).requests ((client.learn env msg).sendAuthenticatedAllocate_requests env sendTo)

theorem kept_step (kept : Kept env client) (call : TurnCall) : Kept env (client.step env call).2 := by
  have moved := client.step_moves env call
  generalize client.step env call = result at *
  cases moved with
  | requests _ _ inside request => exact kept.requests request
  | answers raw now sendTo _ answer => exact kept.answers answer
  | expires => exact { kept with }

theorem kept_final (env : TurnEnv) (config : TurnConfig) (calls : List TurnCall) :
    Kept env (final (step env) (new config) calls) := by
  apply final_invariant (step env) (fun _ _ => True) (Kept env)
  · intro client call _ kept
    exact kept_step kept call
  · exact kept_new env config
  · intro _ _
    trivial

end Kept

/-- A datagram that extends the allocation is an authentic response exactly when the pending
transaction id is that of a signed request that went out. -/
theorem allocation_authentic_iff (env : TurnEnv) (config : TurnConfig) (earlier : List TurnCall) (raw : Bytes) (now : Int)
    (sendTo : Except IceError Unit)
    (extended : Extends (final (step env) (new config) earlier)
      ((final (step env) (new config) earlier).step env (.handleIncoming raw now sendTo)).2) :
    Authentic env (final (step env) (new config) earlier) raw ↔
      ∃ out ∈ (final (step env) (new config) earlier).sent, out.SignedRequest ∧
        (final (step env) (new config) earlier).pendingTid = some out.message.transactionId := by
  have kept := kept_final env config earlier
  generalize final (step env) (new config) earlier = client at *
  obtain ⟨msg,accepted,success⟩ := (handleIncoming_answers env client raw now sendTo).extended extended
  have response := isResponse_of_success success
  constructor
  · rintro ⟨_,decoded,_,⟨out,member,signed,id⟩,_⟩
    cases accepted.decoded.symm.trans decoded
    refine ⟨out,member,signed,?_⟩
    cases pending : client.pendingTid with
    | none =>
      obtain ⟨noAllocate,noRefresh⟩ := kept.pending pending out member
      rcases signed.1 with allocate | refresh
      · exact absurd allocate noAllocate
      · exact absurd refresh noRefresh
    | some tid => rw [id,accepted.solicited response pending]
  · rintro ⟨out,member,signed,pending⟩
    obtain ⟨key,known⟩ := Option.isSome_iff_exists.mp (kept.keyed out member signed)
    refine ⟨msg,accepted.decoded,success,⟨out,member,signed,?_⟩,key,known,accepted.verified success known⟩
    exact (accepted.solicited response pending).symm

end Streamhaul.TurnClient

namespace Streamhaul.Transparent

/-- Keys and integrity values one can read off the bytes, and numbered transaction ids. -/
def turnEnv : TurnEnv :=
  ⟨⟨fun key data => vectorAt 20 (key ++ data) 0,fun _ => 0,fun _ => []⟩,fun bytes => bytes.take 16,
    fun i => Vector.replicate 12 (UInt8.ofNat i)⟩

def turnConfig : TurnConfig := ⟨.v4 0x0a000001 3478,['u'],['p'],600⟩

def turnKey : Bytes := longTermKey turnEnv ['u'] [] ['p']

def unauthorized (i : Nat) : Bytes :=
  TurnMessage.encode ⟨methodAllocate,3,turnEnv.tid i,[.errorCode 401 [],.realm [],.nonce [5]]⟩

def allocateSuccess (i : Nat) : TurnMessage :=
  ⟨methodAllocate,2,turnEnv.tid i,[.xorRelayedAddress (.v4 0x01020304 9),.lifetime 600]⟩

def signedSuccess (i : Nat) : Bytes := (allocateSuccess i).encodeWithIntegrity turnEnv.suite turnKey

/-- A first request and the challenge to it. -/
def challengeRound : List TurnCall := [.startAllocate (.ok ()),.handleIncoming (unauthorized 0) 100 (.ok ())]

end Streamhaul.Transparent

namespace Streamhaul.TurnClient

open Machine Transparent

theorem signed_allocation_authentic :
    Extends (final (step turnEnv) (new turnConfig) challengeRound)
      ((final (step turnEnv) (new turnConfig) challengeRound).step turnEnv
        (.handleIncoming (signedSuccess 1) 100 (.ok ()))).2 ∧
    Authentic turnEnv (final (step turnEnv) (new turnConfig) challengeRound) (signedSuccess 1) := by
  have extended : Extends (final (step turnEnv) (new turnConfig) challengeRound)
      ((final (step turnEnv) (new turnConfig) challengeRound).step turnEnv
        (.handleIncoming (signedSuccess 1) 100 (.ok ()))).2 := by
    decide +kernel
  refine ⟨extended,?_⟩
  apply (allocation_authentic_iff turnEnv turnConfig challengeRound _ 100 (.ok ()) extended).mpr
  decide +kernel

/-- A client that never sent anything takes the relay address of an unsigned success response. -/
theorem unsolicited_success_allocates :
    Extends (new turnConfig) ((new turnConfig).step turnEnv (.handleIncoming (allocateSuccess 9).encode 100 (.ok ()))).2 ∧
    ((new turnConfig).step turnEnv (.handleIncoming (allocateSuccess 9).encode 100 (.ok ()))).2.relayAddr =
      some (.v4 0x01020304 9) ∧
    ¬Authentic turnEnv (new turnConfig) (allocateSuccess 9).encode := by
  refine ⟨by decide +kernel,by decide +kernel,?_⟩
  rintro ⟨_,_,_,⟨out,member,_⟩,_⟩
  cases member

end Streamhaul.TurnClient
