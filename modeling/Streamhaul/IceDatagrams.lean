import Streamhaul.IceLedger
import Streamhaul.IceInterop

/-! Datagrams that the ICE agent has to ignore, and what they leave behind. -/
namespace Streamhaul

namespace IceAgent

variable (env : IceEnv) (agent : IceAgent) (data : Bytes) (source : SocketAddr)

def Carries (msg : StunMessage) (kind : StunClass) : Prop :=
  StunMessage.decode env.suite data = .ok msg ∧ msg.class' = kind

/-- The first transaction in flight under an id is for a pair that does not target the source. -/
def Elsewhere (tid : TransactionId) : Prop :=
  ∃ t, agent.inFlight.find? (fun t => t.1 = tid) = some t ∧
    ∀ pair, agent.checkList[t.2]? = some pair → source ≠ pair.remote.addr

/-- The reasons to ignore a datagram. -/
inductive Rejected : Prop
  | undecodable (e : IceError) (failed : StunMessage.decode env.suite data = .error e)
  | unsignedRequest (msg : StunMessage) (carries : Carries env data msg .request)
      (unsigned : StunMessage.verifyIntegrity env.suite data agent.config.localPwd.asBytes ≠ .ok ())
  | misnamedRequest (msg : StunMessage) (carries : Carries env data msg .request)
      (misnamed : usernameValid msg agent.config.localUfrag = false)
  | unsignedResponse (msg : StunMessage) (carries : Carries env data msg .successResponse)
      (unsigned : StunMessage.verifyIntegrity env.suite data agent.config.remotePwd.asBytes ≠ .ok ())
  | spuriousResponse (msg : StunMessage) (carries : Carries env data msg .successResponse)
      (spurious : ∀ t ∈ agent.inFlight, t.1 ≠ msg.transactionId)
  | misdirectedResponse (msg : StunMessage) (carries : Carries env data msg .successResponse)
      (misdirected : agent.Elsewhere source msg.transactionId)

def Outstanding : Prop :=
  ∃ msg, Carries env data msg .successResponse ∧
    StunMessage.verifyIntegrity env.suite data agent.config.remotePwd.asBytes = .ok () ∧
    ∃ t ∈ agent.inFlight, t.1 = msg.transactionId

variable {env agent data source} {msg : StunMessage}

theorem verify_cases {raw key : Bytes} (unsigned : StunMessage.verifyIntegrity env.suite raw key ≠ .ok ()) :
    ∃ e, StunMessage.verifyIntegrity env.suite raw key = .error e := by
  cases verified : StunMessage.verifyIntegrity env.suite raw key with
  | error e => exact ⟨e,rfl⟩
  | ok _ => exact absurd verified unsigned

theorem handleIncoming_carried_request (carries : Carries env data msg .request) :
    agent.handleIncoming env data source = agent.handleBindingRequest env data msg source := by
  simp only [handleIncoming,carries.1,carries.2]

theorem handleIncoming_carried_response (carries : Carries env data msg .successResponse) :
    agent.handleIncoming env data source = agent.handleBindingResponse env data msg source := by
  simp only [handleIncoming,carries.1,carries.2]

theorem handleBindingRequest_unsigned
    (unsigned : StunMessage.verifyIntegrity env.suite data agent.config.localPwd.asBytes ≠ .ok ()) :
    agent.handleBindingRequest env data msg source = agent := by
  obtain ⟨e,failed⟩ := verify_cases unsigned
  simp only [handleBindingRequest,failed]

theorem handleBindingRequest_misnamed (misnamed : usernameValid msg agent.config.localUfrag = false) :
    agent.handleBindingRequest env data msg source = agent := by
  simp only [handleBindingRequest,misnamed]
  split <;> rfl

theorem handleBindingResponse_unsigned
    (unsigned : StunMessage.verifyIntegrity env.suite data agent.config.remotePwd.asBytes ≠ .ok ()) :
    agent.handleBindingResponse env data msg source = agent := by
  obtain ⟨e,failed⟩ := verify_cases unsigned
  simp only [handleBindingResponse,failed]

theorem handleBindingResponse_spurious (spurious : ∀ t ∈ agent.inFlight, t.1 ≠ msg.transactionId) :
    agent.handleBindingResponse env data msg source = agent := by
  have missing : agent.inFlight.findIdx? (fun t => t.1 = msg.transactionId) = none := by
    simpa [List.findIdx?_eq_none_iff] using fun tid idx member => spurious (tid,idx) member
  simp only [handleBindingResponse,missing]
  split <;> rfl

/-- The transaction is given up before the source is looked at. -/
theorem handleBindingResponse_misdirected (misdirected : agent.Elsewhere source msg.transactionId)
    (signed : StunMessage.verifyIntegrity env.suite data agent.config.remotePwd.asBytes = .ok ()) :
    ∃ pos < agent.inFlight.length,
      agent.handleBindingResponse env data msg source = { agent with inFlight := agent.inFlight.eraseIdx pos } := by
  obtain ⟨t,first,elsewhere⟩ := misdirected
  cases found : agent.inFlight.findIdx? (fun t => t.1 = msg.transactionId) with
  | none =>
    rw [find?_of_findIdx?_none found] at first
    cases first
  | some pos =>
    obtain ⟨t',here,first',-⟩ := getElem?_of_findIdx? found
    cases first'.symm.trans first
    refine ⟨pos,(List.getElem?_eq_some_iff.mp here).1,?_⟩
    simp only [handleBindingResponse,signed,found,here]
    cases listed : agent.checkList[t.2]? with
    | none => rfl
    | some pair => exact if_pos (elsewhere pair listed)

theorem handleBindingResponse_forgets (misdirected : agent.Elsewhere source msg.transactionId)
    (signed : StunMessage.verifyIntegrity env.suite data agent.config.remotePwd.asBytes = .ok ()) :
    agent.handleBindingResponse env data msg source ≠ agent := by
  obtain ⟨pos,bound,forgot⟩ := handleBindingResponse_misdirected misdirected signed
  intro same
  rw [forgot] at same
  have shorter := congrArg (fun a : IceAgent => a.inFlight.length) same
  simp only [List.length_eraseIdx,if_pos bound] at shorter
  omega

theorem Carries.unique {msg msg' : StunMessage} {kind kind' : StunClass} (first : Carries env data msg kind)
    (second : Carries env data msg' kind') : msg = msg' ∧ kind = kind' := by
  have same := Except.ok.inj (first.1.symm.trans second.1)
  exact ⟨same,by rw [← first.2,← second.2,same]⟩

/-- A datagram that is to be ignored leaves the agent as it is, and has it send nothing,
exactly when it is not a signed response to a transaction in flight. -/
theorem rejected_ignored_iff (env : IceEnv) (agent : IceAgent) (data : Bytes) (source : SocketAddr)
    (rejected : agent.Rejected env data source) :
    agent.handleIncoming env data source = agent ↔ ¬agent.Outstanding env data := by
  have other {msg : StunMessage} (carries : Carries env data msg .request) : ¬agent.Outstanding env data := by
    rintro ⟨msg',carries',-⟩
    cases (carries.unique carries').2
  have quiet (unsigned : StunMessage.verifyIntegrity env.suite data agent.config.remotePwd.asBytes ≠ .ok ()) :
      ¬agent.Outstanding env data := by
    rintro ⟨_,_,signed,-⟩
    exact unsigned signed
  cases rejected with
  | undecodable e failed =>
    refine iff_of_true (by simp only [handleIncoming,failed]) ?_
    rintro ⟨msg,carries,-⟩
    cases failed.symm.trans carries.1
  | unsignedRequest msg carries unsigned =>
    rw [handleIncoming_carried_request carries]
    exact iff_of_true (handleBindingRequest_unsigned unsigned) (other carries)
  | misnamedRequest msg carries misnamed =>
    rw [handleIncoming_carried_request carries]
    exact iff_of_true (handleBindingRequest_misnamed misnamed) (other carries)
  | unsignedResponse msg carries unsigned =>
    rw [handleIncoming_carried_response carries]
    exact iff_of_true (handleBindingResponse_unsigned unsigned) (quiet unsigned)
  | spuriousResponse msg carries spurious =>
    rw [handleIncoming_carried_response carries]
    refine iff_of_true (handleBindingResponse_spurious spurious) ?_
    rintro ⟨msg',carries',-,t,flying,same⟩
    rw [(carries'.unique carries).1] at same
    exact spurious t flying same
  | misdirectedResponse msg carries misdirected =>
    rw [handleIncoming_carried_response carries]
    by_cases signed : StunMessage.verifyIntegrity env.suite data agent.config.remotePwd.asBytes = .ok ()
    · refine iff_of_false (handleBindingResponse_forgets misdirected signed) (not_not_intro ?_)
      obtain ⟨t,first,-⟩ := misdirected
      exact ⟨msg,carries,signed,t,List.mem_of_find?_eq_some first,by simpa using List.find?_some first⟩
    · exact iff_of_true (handleBindingResponse_unsigned signed) (quiet signed)

end IceAgent

namespace Transparent

open IceAgent

def answerTo (tid : TransactionId) : Bytes :=
  (bindingResponse (StunMessage.newBindingRequest tid) addrA).encodeWithIntegrity stun (Text.asBytes "pwd-b".toList)

theorem carries_answerTo (tid : TransactionId) : Carries ⟨stun,tids⟩ (answerTo tid)
    ((bindingResponse (StunMessage.newBindingRequest tid) addrA).signed stun (Text.asBytes "pwd-b".toList))
    .successResponse :=
  ⟨StunMessage.decode_signed stun _ _ (bindingResponse_signable (StunMessage.newBindingRequest tid) addrA),rfl⟩

end Transparent

namespace IceAgent

open Transparent

/-- A response to a transaction that was never started is ignored. -/
theorem spurious_answer_ignored :
    (checking (aliceConfig "a" "b") addrB).handleIncoming ⟨stun,tids⟩ (answerTo (tids 7)) addrB =
      checking (aliceConfig "a" "b") addrB := by
  have spurious : ∀ t ∈ (checking (aliceConfig "a" "b") addrB).inFlight, t.1 ≠ tids 7 := by decide +kernel
  have ignored := rejected_ignored_iff ⟨stun,tids⟩ (checking (aliceConfig "a" "b") addrB) (answerTo (tids 7)) addrB
    (.spuriousResponse _ (carries_answerTo _) spurious)
  refine ignored.mpr ?_
  rintro ⟨msg,carries,-,t,flying,same⟩
  rw [(carries.unique (carries_answerTo _)).1] at same
  exact spurious t flying same

/-- The answer of the peer reaches the agent from an address that is not the pair's. The
transaction is given up, so the same answer from the right address is a spurious one and the
pair stays in progress. -/
theorem misdirected_answer_forgotten :
    (checking (aliceConfig "a" "b") addrB).Rejected ⟨stun,tids⟩ (answerTo (tids 0)) addrA ∧
    (checking (aliceConfig "a" "b") addrB).inFlight = [(tids 0,0)] ∧
    ((checking (aliceConfig "a" "b") addrB).handleIncoming ⟨stun,tids⟩ (answerTo (tids 0)) addrA).inFlight = [] ∧
    ((((checking (aliceConfig "a" "b") addrB).handleIncoming ⟨stun,tids⟩ (answerTo (tids 0)) addrA).handleIncoming
      ⟨stun,tids⟩ (answerTo (tids 0)) addrB).checkList.map CandidatePair.state) = [.inProgress] ∧
    (((checking (aliceConfig "a" "b") addrB).handleIncoming ⟨stun,tids⟩ (answerTo (tids 0))
      addrB).checkList.map CandidatePair.state) = [.succeeded] := by
  refine ⟨.misdirectedResponse _ (carries_answerTo _) ⟨(tids 0,0),by decide +kernel,?_⟩,by decide +kernel,
    by decide +kernel,by decide +kernel,by decide +kernel⟩
  intro pair listed
  have target : ((checking (aliceConfig "a" "b") addrB).checkList[0]?).map (fun p => p.remote.addr) = some addrB := by
    decide +kernel
  rw [listed] at target
  have addr : pair.remote.addr = addrB := Option.some.inj target
  rw [addr]
  decide

end IceAgent

end Streamhaul
