import Streamhaul.IceAgent
import Streamhaul.StunCodec

/-! A connectivity check crosses from the agent that builds it to the agent that verifies
it and back. The sender writes its own fragment after the colon; the receiver looks there
for its own. -/
namespace Streamhaul

open StunMessage (verifyIntegrity)

structure CrossWired (a b : IceConfig) : Prop where
  ufrag : a.remoteUfrag = b.localUfrag
  pwd : a.remotePwd = b.localPwd
  ufragBack : b.remoteUfrag = a.localUfrag
  pwdBack : b.remotePwd = a.localPwd

/-- A `USERNAME` of the request names the fragment before its colon: its addressee. -/
def Addressed (msg : StunMessage) (ufrag : Text) : Prop :=
  ∃ name sender, .username name ∈ msg.attributes ∧ Text.splitOnce ':' name = some (ufrag,sender)

/-- A `USERNAME` of the request names the fragment after its colon: its sender. -/
def SentBy (msg : StunMessage) (ufrag : Text) : Prop :=
  ∃ name addressee, .username name ∈ msg.attributes ∧ Text.splitOnce ':' name = some (addressee,ufrag)

theorem usernameValid_iff {msg : StunMessage} {ufrag : Text} :
    IceAgent.usernameValid msg ufrag = true ↔ SentBy msg ufrag := by
  simp only [IceAgent.usernameValid,List.any_eq_true,SentBy]
  constructor
  · rintro ⟨attr,member,valid⟩
    cases attr with
    | username name =>
      simp only at valid
      split at valid
      · next addressee found split =>
        cases beq_iff_eq.mp valid
        exact ⟨name,addressee,member,split⟩
      · cases valid
    | _ => cases valid
  · rintro ⟨name,addressee,member,split⟩
    exact ⟨_,member,by simp [split]⟩

def SocketAddr.plain : SocketAddr → SocketAddr
  | .v4 ip port => .v4 ip port
  | .v6 ip port _ _ => .v6 ip port 0 0

theorem SocketAddr.plain_plain (addr : SocketAddr) : addr.plain.Plain := by
  cases addr with
  | v4 => trivial
  | v6 => exact ⟨rfl,rfl⟩

section Request

variable (tid : TransactionId) (role : IceRole) (tieBreaker : UInt64) (priority : UInt32) (nominate : Bool)
  (creds : CheckCreds)

/-- The attributes of a check, its integrity value included, fit the length field. -/
abbrev RequestFits : Prop :=
  (bindingRequest tid role tieBreaker priority nominate creds).attrBytes.length + 24 ≤ u16Max

theorem bindingRequest_signable (fits : RequestFits tid role tieBreaker priority nominate creds) :
    (bindingRequest tid role tieBreaker priority nominate creds).Signable where
  plain := by
    intro attr member
    cases role <;> cases nominate <;> simp [bindingRequest] at member <;>
      rcases member with rfl | rfl | rfl | rfl <;> trivial
  unsigned := by
    rintro _ member hmac rfl
    cases role <;> cases nominate <;> simp [bindingRequest] at member
  fits := fits

theorem username_mem_bindingRequest (suite : StunSuite) (key : Bytes) (name : Text) :
    StunAttribute.username name ∈
      ((bindingRequest tid role tieBreaker priority nominate creds).signed suite key).attributes ↔
      name = creds.remoteUfrag ++ ':' :: creds.localUfrag := by
  cases role <;> cases nominate <;> simp [bindingRequest,StunMessage.signed]

theorem sentBy_bindingRequest (suite : StunSuite) (key : Bytes) (colonFree : ':' ∉ creds.remoteUfrag) (ufrag : Text) :
    SentBy ((bindingRequest tid role tieBreaker priority nominate creds).signed suite key) ufrag ↔
      creds.localUfrag = ufrag := by
  simp only [SentBy,username_mem_bindingRequest]
  constructor
  · rintro ⟨_,addressee,rfl,found⟩
    rw [Text.splitOnce_append colonFree] at found
    cases found
    rfl
  · rintro rfl
    exact ⟨_,_,rfl,Text.splitOnce_append colonFree⟩

theorem addressed_bindingRequest (suite : StunSuite) (key : Bytes) (colonFree : ':' ∉ creds.remoteUfrag)
    (ufrag : Text) :
    Addressed ((bindingRequest tid role tieBreaker priority nominate creds).signed suite key) ufrag ↔
      creds.remoteUfrag = ufrag := by
  simp only [Addressed,username_mem_bindingRequest]
  constructor
  · rintro ⟨_,sender,rfl,found⟩
    rw [Text.splitOnce_append colonFree] at found
    cases found
    rfl
  · rintro rfl
    exact ⟨_,_,rfl,Text.splitOnce_append colonFree⟩

end Request

namespace IceAgent

variable {env : IceEnv} {agent : IceAgent} {msg : StunMessage}

/-- A step that only adds to what was emitted. -/
structure Emits (agent agent' : IceAgent) : Prop where
  sent : agent.sent <+: agent'.sent
  outgoing : agent.outgoing <+: agent'.outgoing

theorem Emits.trans {a b c : IceAgent} (first : a.Emits b) (second : b.Emits c) : a.Emits c :=
  ⟨first.sent.trans second.sent,first.outgoing.trans second.outgoing⟩

theorem emits_of_eq {a b : IceAgent} (sent : b.sent = a.sent) (outgoing : b.outgoing = a.outgoing) : a.Emits b :=
  ⟨by rw [sent],by rw [outgoing]⟩

theorem route_emits (agent : IceAgent) (viaRelay : Bool) (datagram : Datagram) :
    agent.Emits (agent.route viaRelay datagram) := by
  cases viaRelay
  · exact ⟨List.prefix_append _ _,List.prefix_rfl⟩
  · exact ⟨List.prefix_rfl,List.prefix_append _ _⟩

theorem sendCheck_emits (agent : IceAgent) (idx : Nat) (pair : CandidatePair) (nominate : Bool)
    (dest : SocketAddr) : agent.Emits (agent.sendCheck env idx pair nominate dest) := by
  have routed := route_emits { agent with
    drawn := agent.drawn + 1, inFlight := agent.inFlight ++ [(env.tid agent.drawn,idx)] }
  exact ⟨(routed _ _).sent,(routed _ _).outgoing⟩

theorem followNomination_emits (agent : IceAgent) (msg : StunMessage) (source : SocketAddr) :
    agent.Emits (agent.followNomination msg source) := by
  unfold followNomination
  dsimp only
  split
  · split <;> exact emits_of_eq rfl rfl
  · exact emits_of_eq rfl rfl

theorem sendTriggered_emits (agent : IceAgent) (idx : Nat) (source : SocketAddr) :
    agent.Emits (agent.sendTriggered env idx source) := by
  unfold sendTriggered
  split
  · exact emits_of_eq rfl rfl
  · next pair _ =>
    have checked := @sendCheck_emits env agent idx pair
    dsimp only
    split
    · exact (checked _ _).trans (emits_of_eq rfl rfl)
    · exact checked _ _

theorem triggerCheck_emits (agent : IceAgent) (source : SocketAddr) :
    agent.Emits (agent.triggerCheck env source) := by
  have succeeded : agent.Emits (agent.succeedUnchecked source) := emits_of_eq rfl rfl
  unfold triggerCheck
  split
  · exact succeeded
  · exact succeeded.trans (sendTriggered_emits _ _ _)

def Answers (agent agent' : IceAgent) (datagram : Datagram) : Prop :=
  agent.sent ++ [datagram] <+: agent'.sent ∨ agent.outgoing ++ [datagram] <+: agent'.outgoing

theorem Answers.ne {agent agent' : IceAgent} {datagram : Datagram} (answers : agent.Answers agent' datagram) :
    agent' ≠ agent := by
  rintro rfl
  rcases answers with longer | longer
  · simpa using longer.length_le
  · simpa using longer.length_le

theorem respond_answers (agent : IceAgent) (msg : StunMessage) (source : SocketAddr) :
    agent.Answers (agent.respond env msg source)
      ((bindingResponse msg source).encodeWithIntegrity env.suite agent.config.localPwd.asBytes,source) := by
  simp only [respond,route]
  split
  · exact .inr List.prefix_rfl
  · exact .inl List.prefix_rfl

theorem Answers.emits {a b c : IceAgent} {datagram : Datagram} (answers : a.Answers b datagram)
    (more : b.Emits c) : a.Answers c datagram := by
  rcases answers with here | here
  · exact .inl (here.trans more.sent)
  · exact .inr (here.trans more.outgoing)

theorem handleIncoming_request {raw : Bytes} {source : SocketAddr}
    (decoded : StunMessage.decode env.suite raw = .ok msg) (request : msg.class' = .request) :
    agent.handleIncoming env raw source = agent.handleBindingRequest env raw msg source := by
  simp only [handleIncoming,decoded,request]

/-- A request has no effect unless it is signed with the own password and names the own
fragment after a colon; then it is answered. -/
theorem handleBindingRequest_cases (raw : Bytes) (msg : StunMessage) (source : SocketAddr) :
    (verifyIntegrity env.suite raw agent.config.localPwd.asBytes = .ok () ∧ SentBy msg agent.config.localUfrag ∧
      agent.Answers (agent.handleBindingRequest env raw msg source)
        ((bindingResponse msg source).encodeWithIntegrity env.suite agent.config.localPwd.asBytes,source)) ∨
    (¬(verifyIntegrity env.suite raw agent.config.localPwd.asBytes = .ok () ∧ SentBy msg agent.config.localUfrag) ∧
      agent.handleBindingRequest env raw msg source = agent) := by
  unfold handleBindingRequest
  cases integrity : verifyIntegrity env.suite raw agent.config.localPwd.asBytes with
  | error e => exact .inr ⟨by simp,rfl⟩
  | ok =>
    by_cases valid : usernameValid msg agent.config.localUfrag = true
    · rw [if_pos valid]
      refine .inl ⟨rfl,usernameValid_iff.mp valid,?_⟩
      apply (respond_answers agent msg source).emits
      exact (followNomination_emits _ _ _).trans (triggerCheck_emits _ _)
    · rw [if_neg valid]
      exact .inr ⟨fun both => valid (usernameValid_iff.mpr both.2),rfl⟩

/-- A request is dropped exactly when it is not signed with the own password or names
another fragment after its colons. -/
theorem handleIncoming_request_dropped_iff {raw : Bytes} {source : SocketAddr}
    (decoded : StunMessage.decode env.suite raw = .ok msg) (request : msg.class' = .request) :
    agent.handleIncoming env raw source = agent ↔
      ¬(verifyIntegrity env.suite raw agent.config.localPwd.asBytes = .ok () ∧
        SentBy msg agent.config.localUfrag) := by
  rw [handleIncoming_request decoded request]
  rcases @handleBindingRequest_cases env agent raw msg source with ⟨signed,sender,answers⟩ | ⟨refused,same⟩
  · exact ⟨fun same => absurd same answers.ne,fun refused => absurd ⟨signed,sender⟩ refused⟩
  · exact ⟨fun _ => refused,fun _ => same⟩

/-- A transaction the agent waits for: its first entry in flight, and the pair it checks. -/
structure Awaiting (agent : IceAgent) (tid : TransactionId) (remote : SocketAddr) (pos idx : Nat)
    (pair : CandidatePair) : Prop where
  first : agent.inFlight.findIdx? (fun t => t.1 = tid) = some pos
  entry : agent.inFlight[pos]? = some (tid,idx)
  listed : agent.checkList[idx]? = some pair
  target : pair.remote.addr = remote

theorem bindingResponse_plain (suite : StunSuite) (msg : StunMessage) (source : SocketAddr) (key : Bytes) :
    (bindingResponse msg source).encodeWithIntegrity suite key =
      (bindingResponse msg source.plain).encodeWithIntegrity suite key := by
  cases source <;> rfl

theorem bindingResponse_signable (msg : StunMessage) (source : SocketAddr) :
    (bindingResponse msg source.plain).Signable where
  plain := by
    intro attr member
    cases List.mem_singleton.mp member
    exact source.plain_plain
  unsigned := by
    rintro _ member hmac rfl
    cases List.mem_singleton.mp member
  fits := by
    have value : (encodeXorMappedAddress source.plain msg.transactionId).length ≤ 20 := by
      cases source <;> simp [encodeXorMappedAddress,SocketAddr.plain]
    have size : (bindingResponse msg source.plain).attrBytes.length =
        4 + Tlv.paddedLen (encodeXorMappedAddress source.plain msg.transactionId).length := by
      simp [bindingResponse,StunMessage.attrBytes,encodeAttributes,encodeOneAttribute,Tlv.length_item,attributeTlv,
        StunMessage.newBindingResponse]
    rw [size,Tlv.paddedLen,u16Max]
    omega

/-- A success response signed with the remote password, to an awaited transaction and from
the address the check went to, is accepted. -/
theorem handleIncoming_response {source remote : SocketAddr} {pos idx : Nat}
    {pair : CandidatePair} (awaiting : agent.Awaiting msg.transactionId remote pos idx pair) :
    agent.handleIncoming env ((bindingResponse msg source).encodeWithIntegrity env.suite
        agent.config.remotePwd.asBytes) remote =
      { agent with inFlight := agent.inFlight.eraseIdx pos }.confirmPair env idx pair remote := by
  have signable := bindingResponse_signable msg source
  have decoded := StunMessage.decode_signed env.suite _ agent.config.remotePwd.asBytes signable
  have integrity := StunMessage.verifyIntegrity_signed env.suite agent.config.remotePwd.asBytes signable
    agent.config.remotePwd.asBytes
  rw [if_pos rfl] at integrity
  rw [bindingResponse_plain]
  have class' : ((bindingResponse msg source.plain).signed env.suite agent.config.remotePwd.asBytes).class' =
      .successResponse := rfl
  have tid : ((bindingResponse msg source.plain).signed env.suite agent.config.remotePwd.asBytes).transactionId =
      msg.transactionId := rfl
  simp only [handleIncoming,decoded,class',handleBindingResponse,integrity,tid,awaiting.first,awaiting.entry,
    awaiting.listed,awaiting.target,ne_eq,not_true_eq_false,if_false]

theorem confirmPair_succeeded {idx : Nat} {pair : CandidatePair} (listed : agent.checkList[idx]? = some pair)
    (source : SocketAddr) :
    ∃ confirmed, (agent.confirmPair env idx pair source).checkList[idx]? = some confirmed ∧
      confirmed.state = .succeeded := by
  have bound : idx < agent.checkList.length := (List.getElem?_eq_some_iff.mp listed).1
  unfold confirmPair
  dsimp only
  split
  · refine ⟨{ pair with state := .succeeded, nominated := true },?_,rfl⟩
    rw [checkList_sendCheck]
    simp [bound]
  · exact ⟨{ pair with state := .succeeded },by simp [bound],rfl⟩

section Crossing

variable {tid : TransactionId} {role : IceRole} {tieBreaker : UInt64} {priority : UInt32} {nominate : Bool}
  {creds : CheckCreds} {source : SocketAddr}

/-- A check signed with the receiver's password decodes and passes the integrity check. -/
theorem buildBindingRequest_verifies (suite : StunSuite)
    (fits : RequestFits tid role tieBreaker priority nominate creds) :
    StunMessage.decode suite (buildBindingRequest suite tid role tieBreaker priority nominate creds) =
      .ok ((bindingRequest tid role tieBreaker priority nominate creds).signed suite creds.remotePwd) ∧
    verifyIntegrity suite (buildBindingRequest suite tid role tieBreaker priority nominate creds) creds.remotePwd =
      .ok () := by
  have signable := bindingRequest_signable tid role tieBreaker priority nominate creds fits
  refine ⟨StunMessage.decode_signed suite _ _ signable,?_⟩
  rw [buildBindingRequest,StunMessage.verifyIntegrity_signed suite _ signable,if_pos rfl]

/-- The receiver of a check signed for it drops it exactly when the sender's own fragment
is not the receiver's. -/
theorem buildBindingRequest_dropped_iff (fits : RequestFits tid role tieBreaker priority nominate creds)
    (key : creds.remotePwd = agent.config.localPwd.asBytes) (colonFree : ':' ∉ creds.remoteUfrag) :
    agent.handleIncoming env (buildBindingRequest env.suite tid role tieBreaker priority nominate creds) source =
      agent ↔ creds.localUfrag ≠ agent.config.localUfrag := by
  obtain ⟨decoded,integrity⟩ := buildBindingRequest_verifies env.suite fits
  rw [handleIncoming_request_dropped_iff decoded rfl,← key,integrity,
    sentBy_bindingRequest _ _ _ _ _ _ _ _ colonFree]
  simp

theorem buildBindingRequest_answered (fits : RequestFits tid role tieBreaker priority nominate creds)
    (key : creds.remotePwd = agent.config.localPwd.asBytes) (colonFree : ':' ∉ creds.remoteUfrag)
    (same : creds.localUfrag = agent.config.localUfrag) :
    agent.Answers
      (agent.handleIncoming env (buildBindingRequest env.suite tid role tieBreaker priority nominate creds) source)
      ((bindingResponse ((bindingRequest tid role tieBreaker priority nominate creds).signed env.suite creds.remotePwd)
        source).encodeWithIntegrity env.suite agent.config.localPwd.asBytes,source) := by
  obtain ⟨decoded,integrity⟩ := buildBindingRequest_verifies env.suite fits
  rw [handleIncoming_request decoded rfl]
  rcases @handleBindingRequest_cases env agent
    (buildBindingRequest env.suite tid role tieBreaker priority nominate creds) _ source with ⟨_,_,answers⟩ | ⟨refused,_⟩
  · exact answers
  · refine absurd ⟨?_,?_⟩ refused
    · rw [← key]
      exact integrity
    · exact (sentBy_bindingRequest _ _ _ _ _ _ _ _ colonFree _).mpr same

end Crossing

/-- The request of `a` passes both checks of `b`, and the response of `b` is accepted by `a`
for the pair it awaits. -/
structure Interoperates (suite : StunSuite) (tidsA tidsB : Nat → TransactionId) (a b : IceAgent)
    (request : Bytes) (addrA addrB : SocketAddr) (pos idx : Nat) (pair : CandidatePair) : Prop where
  integrity : verifyIntegrity suite request b.config.localPwd.asBytes = .ok ()
  username : ∃ msg, StunMessage.decode suite request = .ok msg ∧
    usernameValid msg b.config.localUfrag = true
  accepted : ∃ response, b.Answers (b.handleIncoming ⟨suite,tidsB⟩ request addrA) (response,addrA) ∧
    a.handleIncoming ⟨suite,tidsA⟩ response addrB =
      { a with inFlight := a.inFlight.eraseIdx pos }.confirmPair ⟨suite,tidsA⟩ idx pair addrB
  succeeded : ∃ confirmed, ({ a with inFlight := a.inFlight.eraseIdx pos }.confirmPair ⟨suite,tidsA⟩ idx pair
    addrB).checkList[idx]? = some confirmed ∧ confirmed.state = .succeeded

/-- Between cross-wired agents a check interoperates exactly when both have the same local
fragment and the request fits its length field. A request addressed to another fragment is
dropped exactly when it is not both signed for the receiver and sent under its fragment. -/
theorem check_interoperates_iff (suite : StunSuite) (tidsA tidsB : Nat → TransactionId) (a b : IceAgent)
    (wired : CrossWired a.config b.config) (colonFree : ':' ∉ b.config.localUfrag) :
    (∀ tid role tieBreaker priority nominate addrA addrB pos idx pair,
      a.Awaiting tid addrB pos idx pair →
      (Interoperates suite tidsA tidsB a b
        (buildBindingRequest suite tid role tieBreaker priority nominate a.config.checkCreds) addrA addrB pos idx pair ↔
        a.config.localUfrag = b.config.localUfrag ∧
          RequestFits tid role tieBreaker priority nominate a.config.checkCreds)) ∧
    (∀ raw msg source, StunMessage.decode suite raw = .ok msg → msg.class' = .request →
      ¬Addressed msg b.config.localUfrag →
      (b.handleIncoming ⟨suite,tidsB⟩ raw source = b ↔
        ¬(verifyIntegrity suite raw b.config.localPwd.asBytes = .ok () ∧ SentBy msg b.config.localUfrag))) := by
  have remote : a.config.checkCreds.remoteUfrag = b.config.localUfrag := wired.ufrag
  have key : a.config.checkCreds.remotePwd = b.config.localPwd.asBytes := by
    rw [← wired.pwd]
    rfl
  have free : ':' ∉ a.config.checkCreds.remoteUfrag := by rwa [remote]
  refine ⟨?_,fun raw msg source decoded request _ =>
    @handleIncoming_request_dropped_iff ⟨suite,tidsB⟩ b msg raw source decoded request⟩
  intro tid role tieBreaker priority nominate addrA addrB pos idx pair awaiting
  have sender := sentBy_bindingRequest tid role tieBreaker priority nominate a.config.checkCreds suite
    a.config.checkCreds.remotePwd free b.config.localUfrag
  constructor
  · rintro ⟨_,⟨msg,decoded,valid⟩,_,_⟩
    have fits : RequestFits tid role tieBreaker priority nominate a.config.checkCreds := by
      by_contra exceeds
      rw [buildBindingRequest,StunMessage.decode_oversized_signed suite _ _ (by omega)] at decoded
      cases decoded
    rw [(buildBindingRequest_verifies suite fits).1] at decoded
    cases decoded
    exact ⟨sender.mp (usernameValid_iff.mp valid),fits⟩
  · rintro ⟨same,fits⟩
    obtain ⟨decoded,integrity⟩ := buildBindingRequest_verifies suite fits
    have answers := @buildBindingRequest_answered ⟨suite,tidsB⟩ b tid role tieBreaker priority nominate
      a.config.checkCreds addrA fits key free same
    have listed : ({ a with inFlight := a.inFlight.eraseIdx pos } : IceAgent).checkList[idx]? = some pair :=
      awaiting.listed
    refine ⟨?_,⟨_,decoded,usernameValid_iff.mpr (sender.mpr same)⟩,⟨_,answers,?_⟩,confirmPair_succeeded listed _⟩
    · rw [← key]
      exact integrity
    · rw [← wired.pwd]
      exact handleIncoming_response awaiting

end IceAgent

namespace Transparent

def tids (n : Nat) : TransactionId := Vector.replicate 12 (UInt8.ofNat n)

def addrA : SocketAddr := .v4 0x7f000001 19001
def addrB : SocketAddr := .v4 0x7f000002 19001
def addrC : SocketAddr := .v4 0x7f000003 19001

def peer (role : IceRole) (addr : SocketAddr) (localUfrag localPwd remoteUfrag remotePwd : String) : IceConfig :=
  ⟨[addr],role,111,localUfrag.toList,localPwd.toList,remoteUfrag.toList,remotePwd.toList⟩

def aliceConfig (aliceUfrag bobUfrag : String) : IceConfig :=
  peer .controlling addrA aliceUfrag "pwd-a" bobUfrag "pwd-b"

def bobConfig (aliceUfrag bobUfrag : String) : IceConfig :=
  peer .controlled addrB bobUfrag "pwd-b" aliceUfrag "pwd-a"

def checking (config : IceConfig) (remote : SocketAddr) : IceAgent :=
  ((IceAgent.new config).gather.2.addRemoteCandidate (Candidate.new .host remote remote 1)).checkPair ⟨stun,tids⟩ 0

def check (creds : CheckCreds) : Bytes := buildBindingRequest stun (tids 0) .controlling 111 0 false creds

/-- Credentials of a stranger that knows the password of the second agent. -/
def stranger (localUfrag remoteUfrag : String) : CheckCreds :=
  ⟨localUfrag.toList,remoteUfrag.toList,Text.asBytes "pwd-b".toList⟩

end Transparent

namespace IceAgent

open Transparent

theorem crossWired_configs (aliceUfrag bobUfrag : String) :
    CrossWired (aliceConfig aliceUfrag bobUfrag) (bobConfig aliceUfrag bobUfrag) := ⟨rfl,rfl,rfl,rfl⟩

/-- Two agents with one fragment; a stranger's request to a third party is dropped. -/
theorem check_interoperates_same_ufrag :
    (∃ pair, (checking (aliceConfig "same" "same") addrB).Awaiting (tids 0) addrB 0 0 pair ∧
      Interoperates stun tids tids (checking (aliceConfig "same" "same") addrB)
        (checking (bobConfig "same" "same") addrA) (check (aliceConfig "same" "same").checkCreds)
        addrA addrB 0 0 pair) ∧
    (checking (bobConfig "same" "same") addrA).handleIncoming ⟨stun,tids⟩ (check (stranger "carol" "dave")) addrA =
      checking (bobConfig "same" "same") addrA := by
  obtain ⟨forward,dropped⟩ := check_interoperates_iff stun tids tids (checking (aliceConfig "same" "same") addrB)
    (checking (bobConfig "same" "same") addrA) (crossWired_configs "same" "same") (by decide)
  have fits : RequestFits (tids 0) .controlling 111 0 false (stranger "carol" "dave") := by decide
  have colonFree : ':' ∉ (stranger "carol" "dave").remoteUfrag := by decide
  have addressed := (addressed_bindingRequest (tids 0) .controlling 111 0 false (stranger "carol" "dave") stun
    (stranger "carol" "dave").remotePwd colonFree "same".toList).not.mpr (by decide)
  have sender := (sentBy_bindingRequest (tids 0) .controlling 111 0 false (stranger "carol" "dave") stun
    (stranger "carol" "dave").remotePwd colonFree "same".toList).not.mpr (by decide)
  refine ⟨⟨_,⟨rfl,rfl,rfl,rfl⟩,?_⟩,?_⟩
  · exact (forward (tids 0) .controlling 111 0 false addrA addrB 0 0 _ ⟨rfl,rfl,rfl,rfl⟩).mpr ⟨rfl,by decide⟩
  · exact (dropped _ _ addrA (buildBindingRequest_verifies stun fits).1 rfl addressed).mpr
      (fun both => sender both.2)

/-- Cross-wired agents with different fragments: the check is dropped. A stranger's request
to a third party is answered, because it names the receiver's fragment as the sender's. -/
theorem check_dropped_between_peers :
    CrossWired (aliceConfig "alice" "bob") (bobConfig "alice" "bob") ∧
    (∃ pair, (checking (aliceConfig "alice" "bob") addrB).Awaiting (tids 0) addrB 0 0 pair) ∧
    (checking (bobConfig "alice" "bob") addrA).handleIncoming ⟨stun,tids⟩
      (check (aliceConfig "alice" "bob").checkCreds) addrA = checking (bobConfig "alice" "bob") addrA ∧
    (checking (bobConfig "alice" "bob") addrA).handleIncoming ⟨stun,tids⟩
      (check (stranger "bob" "carol")) addrA ≠ checking (bobConfig "alice" "bob") addrA := by
  refine ⟨crossWired_configs "alice" "bob",⟨_,rfl,rfl,rfl,rfl⟩,?_,?_⟩
  · exact (@buildBindingRequest_dropped_iff ⟨stun,tids⟩ (checking (bobConfig "alice" "bob") addrA) (tids 0) .controlling
      111 0 false (aliceConfig "alice" "bob").checkCreds addrA (by decide) rfl (by decide)).mpr (by decide)
  · rw [ne_eq]
    exact (@buildBindingRequest_dropped_iff ⟨stun,tids⟩ (checking (bobConfig "alice" "bob") addrA) (tids 0) .controlling
      111 0 false (stranger "bob" "carol") addrA (by decide) rfl (by decide)).not.mpr (by decide)

end IceAgent

end Streamhaul
