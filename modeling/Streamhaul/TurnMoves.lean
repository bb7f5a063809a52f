import Streamhaul.Machine
import Streamhaul.Turn

/-! What a call does to a TURN client: a request draws a transaction id and goes out, a datagram
is ignored, grants, rejects or challenges. -/
namespace Streamhaul

inductive TurnCall where
  | startAllocate (sendTo : Except IceError Unit)
  | sendAuthenticatedAllocate (sendTo : Except IceError Unit)
  | sendRefresh (sendTo : Except IceError Unit)
  | createPermission (peer : SocketAddr) (sendTo : Except IceError Unit)
  | channelBind (channel : UInt16) (peer : SocketAddr) (sendTo : Except IceError Unit)
  | sendIndication (peer : SocketAddr) (payload : Bytes) (sendTo : Except IceError Unit)
  | handleIncoming (raw : Bytes) (now : Int) (sendTo : Except IceError Unit)
  | markExpired

def TurnCall.datagram : TurnCall → Option Bytes
  | .handleIncoming raw _ _ => some raw
  | _ => none

abbrev TurnResponse := Except IceError (Option (SocketAddr × Bytes))

def TurnMessage.Challenges (msg : TurnMessage) : Prop :=
  msg.method = methodAllocate ∧ msg.class' = 3 ∧ (msg.errorCode = some 401 ∨ msg.errorCode = some 438)

/-- An Allocate or Refresh request that carries message integrity. -/
def Outgoing.SignedRequest (out : Outgoing) : Prop :=
  (out.message.method = methodAllocate ∨ out.message.method = methodRefresh) ∧ out.message.class' = 0 ∧ out.key.isSome

instance (out : Outgoing) : Decidable out.SignedRequest := by
  unfold Outgoing.SignedRequest
  infer_instance

namespace TurnClient

/-- The states in which a request of the client is unanswered. -/
def Waits (client : TurnClient) : Prop :=
  client.state = .allocating ∨ client.state = .allocatingAuthenticated ∨ client.state = .refreshing

instance (client : TurnClient) : Decidable client.Waits := by
  unfold Waits
  infer_instance

def step (env : TurnEnv) (client : TurnClient) : TurnCall → TurnResponse × TurnClient
  | .startAllocate sendTo => (client.startAllocate env sendTo).map (·.map fun _ => none) id
  | .sendAuthenticatedAllocate sendTo => (client.sendAuthenticatedAllocate env sendTo).map (·.map fun _ => none) id
  | .sendRefresh sendTo => (client.sendRefresh env sendTo).map (·.map fun _ => none) id
  | .createPermission peer sendTo => (client.createPermission env sendTo peer).map (·.map fun _ => none) id
  | .channelBind channel peer sendTo => (client.channelBind env sendTo channel peer).map (·.map fun _ => none) id
  | .sendIndication peer payload sendTo => (client.sendIndication env sendTo peer payload).map (·.map fun _ => none) id
  | .handleIncoming raw now sendTo => client.handleIncoming env now sendTo raw
  | .markExpired => (.ok none,client.markExpired)

/-- The datagram passes the checks in front of the dispatch. -/
structure Accepts (env : TurnEnv) (client : TurnClient) (raw : Bytes) (msg : TurnMessage) : Prop where
  decoded : TurnMessage.decode env.suite raw = .ok msg
  fresh : client.isStale msg = false
  genuine : client.isForged env raw msg = false

def learn (env : TurnEnv) (client : TurnClient) (msg : TurnMessage) : TurnClient :=
  if msg.errorCode = some 401 then client.learnChallenge env msg else client.learnNonce msg

/-- What a request does to the client; `awaited` ones replace the pending transaction id. -/
inductive Requests (env : TurnEnv) (client : TurnClient) : TurnClient → Prop
  | refused : Requests env client client
  | unsent (state : TurnState) (awaited : { client with state := state }.Waits) :
      Requests env client { client with state := state, drawn := client.drawn + 1, pendingTid := some (env.tid client.drawn) }
  | awaited (state : TurnState) (message : TurnMessage) (key : Option Bytes)
      (awaited : { client with state := state }.Waits) (id : message.transactionId = env.tid client.drawn)
      (signed : key.isSome → client.ltKey.isSome) :
      Requests env client { client with
        state := state, drawn := client.drawn + 1, pendingTid := some (env.tid client.drawn)
        sent := client.sent ++ [⟨message,key⟩] }
  | lost : Requests env client { client with drawn := client.drawn + 1 }
  | aside (message : TurnMessage) (key : Option Bytes) (id : message.transactionId = env.tid client.drawn)
      (other : message.method ≠ methodAllocate ∧ message.method ≠ methodRefresh) :
      Requests env client { client with drawn := client.drawn + 1, sent := client.sent ++ [⟨message,key⟩] }

/-- What a datagram does to the client. -/
inductive Answers (env : TurnEnv) (client : TurnClient) (raw : Bytes) (now : Int) (sendTo : Except IceError Unit) :
    TurnResponse × TurnClient → Prop
  | ignored (response : TurnResponse) : Answers env client raw now sendTo (response,client)
  | granted (msg : TurnMessage) (relay : Option SocketAddr) (accepted : client.Accepts env raw msg)
      (success : msg.class' = 2) :
      Answers env client raw now sendTo (.ok none,extendLifetime { client with relayAddr := relay } msg now)
  | rejected (msg : TurnMessage) (reason : IceError) (accepted : client.Accepts env raw msg) (failure : msg.class' = 3) :
      Answers env client raw now sendTo (.error reason,{ client with state := .expired })
  | challenged (msg : TurnMessage) (accepted : client.Accepts env raw msg) (challenge : msg.Challenges)
      (first : client.authAttempts = 0) :
      Answers env client raw now sendTo (((client.learn env msg).sendAuthenticatedAllocate env sendTo).map
        (·.map fun _ => none) id)

section Requests

variable (env : TurnEnv) (client : TurnClient) (sendTo : Except IceError Unit)

theorem transmit_awaited (state : TurnState) (message : TurnMessage) (key : Option Bytes)
    (awaited : { client with state := state }.Waits) (id : message.transactionId = env.tid client.drawn)
    (signed : key.isSome → client.ltKey.isSome) :
    Requests env client ({ client with
      state := state, drawn := client.drawn + 1, pendingTid := some (env.tid client.drawn) }.transmit message key
        sendTo).2 := by
  cases sendTo with
  | error e => exact .unsent state awaited
  | ok taken => exact .awaited state message key awaited id signed

theorem transmit_aside (message : TurnMessage) (key : Option Bytes) (id : message.transactionId = env.tid client.drawn)
    (other : message.method ≠ methodAllocate ∧ message.method ≠ methodRefresh) :
    Requests env client ({ client with drawn := client.drawn + 1 }.transmit message key sendTo).2 := by
  cases sendTo with
  | error e => exact .lost
  | ok taken => exact .aside message key id other

theorem startAllocate_requests : Requests env client (client.startAllocate env sendTo).2 := by
  apply transmit_awaited
  · exact .inl rfl
  · rfl
  · intro signed
    cases signed

/-- The authenticated Allocate goes out once realm, nonce and key are there. -/
theorem sendAuthenticatedAllocate_cases :
    ((client.realm = none ∨ client.nonce = none ∨ client.ltKey = none) ∧
      (client.sendAuthenticatedAllocate env sendTo).2 = client) ∨
    ∃ realm nonce ltKey, client.realm = some realm ∧ client.nonce = some nonce ∧ client.ltKey = some ltKey ∧
      client.sendAuthenticatedAllocate env sendTo =
        { client with
          state := .allocatingAuthenticated, drawn := client.drawn + 1
          pendingTid := some (env.tid client.drawn) }.transmit
          ⟨methodAllocate,0,env.tid client.drawn,[.requestedTransport 17,.lifetime client.config.lifetimeSecs,
            .username client.config.username,.realm realm,.nonce nonce]⟩ (some ltKey) sendTo := by
  unfold sendAuthenticatedAllocate
  cases realm : client.realm with
  | none => exact .inl ⟨.inl rfl,rfl⟩
  | some r =>
    cases nonce : client.nonce with
    | none => exact .inl ⟨.inr (.inl rfl),rfl⟩
    | some n =>
      cases key : client.ltKey with
      | none => exact .inl ⟨.inr (.inr rfl),rfl⟩
      | some k => exact .inr ⟨r,n,k,rfl,rfl,rfl,rfl⟩

theorem sendAuthenticatedAllocate_requests : Requests env client (client.sendAuthenticatedAllocate env sendTo).2 := by
  rcases client.sendAuthenticatedAllocate_cases env sendTo with ⟨_,same⟩ | ⟨realm,nonce,ltKey,_,_,known,sends⟩
  · rw [same]
    exact .refused
  · rw [sends]
    apply transmit_awaited
    · exact .inr (.inl rfl)
    · rfl
    · intro _
      exact Option.isSome_of_mem known

theorem credentials_key {ltKey : Bytes} {realm : Text} {nonce : Bytes} (found : client.credentials = .ok (ltKey,realm,nonce)) :
    client.ltKey = some ltKey := by
  unfold credentials at found
  cases key : client.ltKey with
  | none => simp [key] at found
  | some k =>
    cases known : client.realm with
    | none => simp [key,known] at found
    | some r =>
      cases given : client.nonce with
      | none => simp [key,known,given] at found
      | some n => simp_all

theorem sendRefresh_requests : Requests env client (client.sendRefresh env sendTo).2 := by
  unfold sendRefresh
  by_cases idle : client.state ≠ .allocated
  · rw [if_pos idle]
    exact .refused
  · rw [if_neg idle]
    cases found : client.credentials with
    | error e => exact .refused
    | ok known =>
      apply transmit_awaited
      · exact .inr (.inr rfl)
      · rfl
      · intro _
        exact Option.isSome_of_mem (client.credentials_key found)

theorem sendPeerRequest_requests {method : UInt16} {attrs : List TurnAttr}
    (other : method ≠ methodAllocate ∧ method ≠ methodRefresh) :
    Requests env client (client.sendPeerRequest env sendTo method attrs).2 := by
  unfold sendPeerRequest
  cases found : client.credentials with
  | error e => exact .refused
  | ok known =>
    apply transmit_aside
    · rfl
    · exact other

theorem createPermission_requests (peer : SocketAddr) : Requests env client (client.createPermission env sendTo peer).2 := by
  unfold createPermission
  by_cases idle : client.state ≠ .allocated
  · rw [if_pos idle]
    exact .refused
  · rw [if_neg idle]
    apply sendPeerRequest_requests
    decide

theorem channelBind_requests (channel : UInt16) (peer : SocketAddr) :
    Requests env client (client.channelBind env sendTo channel peer).2 := by
  unfold channelBind
  by_cases idle : client.state ≠ .allocated
  · rw [if_pos idle]
    exact .refused
  · rw [if_neg idle]
    by_cases range : ¬(channelMin ≤ channel ∧ channel ≤ channelMax)
    · rw [if_pos range]
      exact .refused
    · rw [if_neg range]
      apply sendPeerRequest_requests
      decide

theorem sendIndication_requests (peer : SocketAddr) (payload : Bytes) :
    Requests env client (client.sendIndication env sendTo peer payload).2 := by
  unfold sendIndication
  by_cases idle : client.state ≠ .allocated
  · rw [if_pos idle]
    exact .refused
  · rw [if_neg idle]
    apply transmit_aside
    · rfl
    · show methodSend ≠ methodAllocate ∧ methodSend ≠ methodRefresh
      decide

end Requests

section Incoming

variable {env : TurnEnv} {client : TurnClient} {raw : Bytes} {msg : TurnMessage} (now : Int) (sendTo : Except IceError Unit)

theorem handleIncoming_of_accepts (accepted : client.Accepts env raw msg) :
    client.handleIncoming env now sendTo raw = client.dispatch env msg now sendTo := by
  unfold handleIncoming
  rw [accepted.decoded]
  simp [accepted.fresh,accepted.genuine]

theorem handleIncoming_cases :
    client.handleIncoming env now sendTo raw = (.ok none,client) ∨ ∃ msg, client.Accepts env raw msg := by
  unfold handleIncoming
  cases decoded : TurnMessage.decode env.suite raw with
  | error e => exact .inl rfl
  | ok msg =>
    cases stale : client.isStale msg with
    | true => exact .inl (by simp [stale])
    | false =>
      cases forged : client.isForged env raw msg with
      | true => exact .inl (by simp [stale,forged])
      | false => exact .inr ⟨msg,decoded,stale,forged⟩

theorem dispatch_granted (allocate : msg.method = methodAllocate) (success : msg.class' = 2) :
    client.dispatch env msg now sendTo = (.ok none,client.onAllocateSuccess msg now) := by
  unfold dispatch
  rw [if_pos ⟨allocate,success⟩]

theorem dispatch_allocate_error (allocate : msg.method = methodAllocate) (failure : msg.class' = 3) :
    client.dispatch env msg now sendTo = client.onAllocateError env msg sendTo := by
  unfold dispatch
  rw [if_neg (by simp [failure]),if_pos ⟨allocate,failure⟩]

/-- A first challenge is answered, every later one ends the client. -/
theorem onAllocateError_of_challenges (challenge : msg.Challenges) :
    client.onAllocateError env msg sendTo =
      if client.authAttempts = 0 then
        ((client.learn env msg).sendAuthenticatedAllocate env sendTo).map (·.map fun _ => none) id
      else (.error (.checkFailed "TURN auth failed: too many retries"),{ client with state := .expired }) := by
  obtain ⟨_,_,code⟩ := challenge
  unfold onAllocateError learn
  by_cases first : client.authAttempts = 0
  · rw [if_neg (by simp [first]),if_pos first]
    rcases code with unauthorized | stale
    · simp [unauthorized,Prod.map]
    · simp [stale,Prod.map]
  · rw [if_pos (by rcases code with code | code <;> simp [code] <;> omega),if_neg first]

theorem onAllocateError_of_other (other : ¬(msg.errorCode = some 401 ∨ msg.errorCode = some 438)) :
    ∃ reason, client.onAllocateError env msg sendTo = (.error reason,{ client with state := .expired }) := by
  have code : msg.errorCode.getD 0 ≠ 401 ∧ msg.errorCode.getD 0 ≠ 438 := by
    cases given : msg.errorCode with
    | none => exact ⟨by decide,by decide⟩
    | some c => simpa [given] using other
  unfold onAllocateError
  simp only [code.1,code.2,or_self,false_and,if_false]
  exact ⟨_,rfl⟩

theorem onAllocateError_answers (accepted : client.Accepts env raw msg) (allocate : msg.method = methodAllocate)
    (failure : msg.class' = 3) : Answers env client raw now sendTo (client.onAllocateError env msg sendTo) := by
  by_cases code : msg.errorCode = some 401 ∨ msg.errorCode = some 438
  · rw [onAllocateError_of_challenges sendTo ⟨allocate,failure,code⟩]
    by_cases first : client.authAttempts = 0
    · rw [if_pos first]
      exact .challenged msg accepted ⟨allocate,failure,code⟩ first
    · rw [if_neg first]
      exact .rejected msg _ accepted failure
  · obtain ⟨reason,ended⟩ := @onAllocateError_of_other env client msg sendTo code
    rw [ended]
    exact .rejected msg reason accepted failure

theorem dispatch_answers (accepted : client.Accepts env raw msg) :
    Answers env client raw now sendTo (client.dispatch env msg now sendTo) := by
  by_cases success : msg.method = methodAllocate ∧ msg.class' = 2
  · rw [dispatch_granted now sendTo success.1 success.2]
    exact .granted msg _ accepted success.2
  by_cases failure : msg.method = methodAllocate ∧ msg.class' = 3
  · rw [dispatch_allocate_error now sendTo failure.1 failure.2]
    exact onAllocateError_answers now sendTo accepted failure.1 failure.2
  unfold dispatch
  rw [if_neg success,if_neg failure]
  by_cases refreshed : msg.method = methodRefresh ∧ msg.class' = 2
  · rw [if_pos refreshed]
    exact .granted msg client.relayAddr accepted refreshed.2
  by_cases refused : msg.method = methodRefresh ∧ msg.class' = 3
  · rw [if_neg refreshed,if_pos refused]
    exact .rejected msg _ accepted refused.2
  rw [if_neg refreshed,if_neg refused]
  by_cases data : msg.method = methodData ∧ msg.class' = 1
  · rw [if_pos data]
    cases peer : msg.peerAddress with
    | none => exact .ignored _
    | some addr =>
      cases payload : msg.payload with
      | none => exact .ignored _
      | some bytes => exact .ignored _
  · rw [if_neg data]
    exact .ignored _

variable (env client raw) in
theorem handleIncoming_answers : Answers env client raw now sendTo (client.handleIncoming env now sendTo raw) := by
  rcases handleIncoming_cases now sendTo with same | ⟨msg,accepted⟩
  · rw [same]
    exact .ignored _
  · rw [handleIncoming_of_accepts now sendTo accepted]
    exact dispatch_answers now sendTo accepted

end Incoming

/-- What any call does to the client. -/
inductive Moves (env : TurnEnv) (client : TurnClient) : TurnCall → TurnResponse × TurnClient → Prop
  | requests (call : TurnCall) (result : TurnResponse × TurnClient) (inside : call.datagram = none)
      (request : Requests env client result.2) : Moves env client call result
  | answers (raw : Bytes) (now : Int) (sendTo : Except IceError Unit) (result : TurnResponse × TurnClient)
      (answer : Answers env client raw now sendTo result) : Moves env client (.handleIncoming raw now sendTo) result
  | expires : Moves env client .markExpired (.ok none,client.markExpired)

theorem step_moves (env : TurnEnv) (client : TurnClient) (call : TurnCall) : Moves env client call (client.step env call) := by
  cases call with
  | startAllocate sendTo => exact .requests _ _ rfl (client.startAllocate_requests env sendTo)
  | sendAuthenticatedAllocate sendTo => exact .requests _ _ rfl (client.sendAuthenticatedAllocate_requests env sendTo)
  | sendRefresh sendTo => exact .requests _ _ rfl (client.sendRefresh_requests env sendTo)
  | createPermission peer sendTo => exact .requests _ _ rfl (client.createPermission_requests env sendTo peer)
  | channelBind channel peer sendTo => exact .requests _ _ rfl (client.channelBind_requests env sendTo channel peer)
  | sendIndication peer payload sendTo => exact .requests _ _ rfl (client.sendIndication_requests env sendTo peer payload)
  | handleIncoming raw now sendTo => exact .answers raw now sendTo _ (handleIncoming_answers env client raw now sendTo)
  | markExpired => exact .expires

end TurnClient

end Streamhaul
