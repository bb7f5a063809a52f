import Streamhaul.IceBookkeeping
import Streamhaul.IceDatagrams

/-! The nominated pair of an ICE agent. The flag of a pair and the nominated index are set
together; they part when the peer nominates over another address. -/
namespace Streamhaul.IceAgent

open CandidatePair Machine

/-- The pair at the nominated index is flagged, and no other is. -/
def Sole (pairs : List CandidatePair) (nominatedIdx : Option Nat) : Prop :=
  ∀ i, nominatedIdx = some i ↔ ∃ pair, pairs[i]? = some pair ∧ pair.nominated = true

def SoleNominee (agent : IceAgent) : Prop := Sole agent.checkList agent.nominatedIdx

section Lists

variable {pairs pairs' : List CandidatePair} {nominatedIdx : Option Nat} {idx : Nat} {pair : CandidatePair}

theorem sole_iff_flags : Sole pairs nominatedIdx ↔ ∀ i, nominatedIdx = some i ↔ (pairs.map nominated)[i]? = some true := by
  simp only [Sole,List.getElem?_map,Option.map_eq_some_iff]

/-- Only flags and index count. -/
theorem sole_congr (flags : pairs'.map nominated = pairs.map nominated) :
    Sole pairs' nominatedIdx ↔ Sole pairs nominatedIdx := by
  rw [sole_iff_flags,sole_iff_flags,flags]

theorem sole_unflagged (unflagged : ∀ p ∈ pairs, p.nominated = false) : Sole pairs none := by
  intro i
  refine iff_of_false (nomatch ·) ?_
  rintro ⟨p,here,flagged⟩
  rw [unflagged p (List.mem_of_getElem? here)] at flagged
  cases flagged

theorem sole_modify_iff {f : CandidatePair → CandidatePair} (here : pairs[idx]? = some pair)
    (flags : ∀ p, (f p).nominated = true) : Sole (pairs.modify idx f) (some idx) ↔
      ∀ i p, pairs[i]? = some p → p.nominated = true → i = idx := by
  constructor
  · intro sole i p there flagged
    by_contra apart
    have other : (pairs.modify idx f)[i]? = some p := by
      rw [List.getElem?_modify_ne f pairs (Ne.symm apart),there]
    exact apart (Option.some.inj ((sole i).mpr ⟨p,other,flagged⟩)).symm
  · intro only i
    by_cases own : idx = i
    · subst own
      refine iff_of_true rfl ⟨f pair,?_,flags pair⟩
      rw [List.getElem?_modify_eq,here]
      rfl
    · refine iff_of_false (fun same => own (Option.some.inj same)) ?_
      rintro ⟨p,there,flagged⟩
      rw [List.getElem?_modify_ne f pairs own] at there
      exact own (only i p there flagged).symm

theorem Sole.first {f : CandidatePair → CandidatePair} (sole : Sole pairs none) (here : pairs[idx]? = some pair)
    (flags : ∀ p, (f p).nominated = true) : Sole (pairs.modify idx f) (some idx) := by
  refine (sole_modify_iff here flags).mpr (fun i p there flagged => ?_)
  cases (sole i).mpr ⟨p,there,flagged⟩

end Lists

section Checks

variable {env : IceEnv} {agent : IceAgent}

def nominations (agent : IceAgent) : List Bool × Option Nat := (agent.checkList.map nominated,agent.nominatedIdx)

theorem soleNominee_congr {agent' : IceAgent} (same : agent'.nominations = agent.nominations) :
    agent'.SoleNominee ↔ agent.SoleNominee := by
  obtain ⟨flags,idx⟩ := Prod.mk.inj same
  rw [SoleNominee,SoleNominee,idx]
  exact sole_congr flags

variable (env agent)

theorem nominations_route (viaRelay : Bool) (datagram : Datagram) :
    (agent.route viaRelay datagram).nominations = agent.nominations := by
  unfold route
  split <;> rfl

theorem nominations_sendCheck (idx : Nat) (pair : CandidatePair) (nominate : Bool) (dest : SocketAddr) :
    (agent.sendCheck env idx pair nominate dest).nominations = agent.nominations := nominations_route _ _ _

theorem nominations_checkPair (idx : Nat) : (agent.checkPair env idx).nominations = agent.nominations := by
  unfold checkPair
  cases here : agent.checkList[idx]? with
  | none => rfl
  | some pair =>
    dsimp only
    split
    · refine (nominations_sendCheck env _ _ _ _ _).trans ?_
      exact Prod.mk.injEq .. ▸ ⟨map_set_of_same here rfl,rfl⟩
    · rfl

theorem nominations_checks (indices : List Nat) :
    (indices.foldl (checkPair env) agent).nominations = agent.nominations := by
  induction indices generalizing agent with
  | nil => rfl
  | cons idx rest ih => exact (ih _).trans (nominations_checkPair env agent idx)

theorem nominations_checkPairs : (agent.checkPairs env).2.nominations = agent.nominations := by
  unfold checkPairs
  split
  · rfl
  · exact nominations_checks env agent _

theorem nominations_succeedUnchecked (source : SocketAddr) :
    (agent.succeedUnchecked source).nominations = agent.nominations := by
  refine Prod.ext ?_ rfl
  simp only [nominations,succeedUnchecked,List.map_map]
  apply List.map_congr_left
  intro p _
  dsimp only [Function.comp]
  split <;> rfl

variable {env agent}

theorem nominations_sendTriggered {j : Nat} (nominated : agent.nominatedIdx = some j) (idx : Nat) (source : SocketAddr) :
    (agent.sendTriggered env idx source).nominations = agent.nominations := by
  unfold sendTriggered
  cases agent.checkList[idx]? with
  | none => rfl
  | some pair =>
    simp only [nominated,Option.isNone_some,Bool.and_false,Bool.false_eq_true,if_false]
    exact nominations_sendCheck env agent idx pair false source

theorem nominations_triggerCheck {j : Nat} (nominated : agent.nominatedIdx = some j) (source : SocketAddr) :
    (agent.triggerCheck env source).nominations = agent.nominations := by
  unfold triggerCheck
  split
  · exact nominations_succeedUnchecked agent source
  · next idx _ =>
    have kept : (agent.succeedUnchecked source).nominatedIdx = some j := nominated
    exact (nominations_sendTriggered kept idx source).trans (nominations_succeedUnchecked agent source)

theorem SoleNominee.sendTriggered (sole : agent.SoleNominee) (idx : Nat) (source : SocketAddr) :
    (agent.sendTriggered env idx source).SoleNominee := by
  cases nominated : agent.nominatedIdx with
  | some j => exact (soleNominee_congr (nominations_sendTriggered nominated idx source)).mpr sole
  | none =>
    unfold IceAgent.sendTriggered
    cases here : agent.checkList[idx]? with
    | none => exact sole
    | some pair =>
      dsimp only
      split
      · rw [SoleNominee,checkList_sendCheck]
        rw [SoleNominee,nominated] at sole
        exact sole.first here (fun p => rfl)
      · exact (soleNominee_congr (nominations_sendCheck env agent idx pair _ source)).mpr sole

theorem SoleNominee.triggerCheck (sole : agent.SoleNominee) (source : SocketAddr) :
    (agent.triggerCheck env source).SoleNominee := by
  have kept := (soleNominee_congr (nominations_succeedUnchecked agent source)).mpr sole
  unfold IceAgent.triggerCheck
  split
  · exact kept
  · exact kept.sendTriggered _ source

theorem SoleNominee.confirmPair (sole : agent.SoleNominee) {pairIdx : Nat} {pair : CandidatePair}
    (here : agent.checkList[pairIdx]? = some pair) (source : SocketAddr) :
    (agent.confirmPair env pairIdx pair source).SoleNominee := by
  unfold IceAgent.confirmPair
  dsimp only
  split
  · next nominates =>
    have nobody : agent.nominatedIdx = none := by simpa using (Bool.and_eq_true_iff.mp nominates).2
    refine (soleNominee_congr (nominations_sendCheck env _ _ _ _ _)).mpr ?_
    rw [SoleNominee,nobody] at sole
    rw [SoleNominee,List.set_eq_modify]
    exact sole.first here (fun _ => rfl)
  · have flags : (agent.checkList.set pairIdx { pair with state := .succeeded }).map nominated =
        agent.checkList.map nominated := map_set_of_same here rfl
    exact (sole_congr flags).mpr sole

theorem SoleNominee.handleBindingResponse (sole : agent.SoleNominee) (raw : Bytes) (msg : StunMessage)
    (source : SocketAddr) : (agent.handleBindingResponse env raw msg source).SoleNominee := by
  unfold IceAgent.handleBindingResponse
  split
  · exact sole
  · split
    · exact sole
    · next pos _ =>
      split
      · exact sole
      · next pairIdx _ =>
        have erased : ({ agent with inFlight := agent.inFlight.eraseIdx pos } : IceAgent).SoleNominee := sole
        dsimp only
        cases here : agent.checkList[pairIdx]? with
        | none => exact erased
        | some pair =>
          dsimp only
          split
          · exact erased
          · exact erased.confirmPair here source

end Checks

section Requests

variable {env : IceEnv} {agent : IceAgent} {msg : StunMessage} {source : SocketAddr}

/-- The request nominates: it carries `USE-CANDIDATE` and its sender is controlling. -/
def Nominating (msg : StunMessage) : Prop :=
  StunAttribute.useCandidate ∈ msg.attributes ∧ ∃ tieBreaker, StunAttribute.iceControlling tieBreaker ∈ msg.attributes

/-- The first pair that targets the source is not the pair that is nominated. -/
def Displaces (agent : IceAgent) (source : SocketAddr) : Prop :=
  ∃ idx nominee, agent.checkList.findIdx? (fun p => p.remote.addr = source) = some idx ∧
    agent.nominatedIdx = some nominee ∧ nominee ≠ idx

theorem followNomination_cases (agent : IceAgent) (msg : StunMessage) (source : SocketAddr) :
    (Nominating msg ∧ ∃ idx, agent.checkList.findIdx? (fun p => p.remote.addr = source) = some idx ∧
      agent.followNomination msg source =
        { agent with checkList := markNominated agent.checkList idx, nominatedIdx := some idx }) ∨
    (¬(Nominating msg ∧ agent.Displaces source) ∧ agent.followNomination msg source = agent) := by
  unfold followNomination
  dsimp only
  split
  · next both =>
    rw [Bool.and_eq_true_iff,List.any_eq_true,List.any_eq_true] at both
    obtain ⟨⟨first,use,isUse⟩,⟨second,controlling,isControlling⟩⟩ := both
    have nominating : Nominating msg := by
      refine ⟨?_,?_⟩
      · cases first with
        | useCandidate => exact use
        | _ => cases isUse
      · cases second with
        | iceControlling tieBreaker => exact ⟨tieBreaker,controlling⟩
        | _ => cases isControlling
    split
    · next none =>
      refine .inr ⟨?_,rfl⟩
      rintro ⟨-,idx,nominee,found,-⟩
      cases none.symm.trans found
    · next idx found => exact .inl ⟨nominating,idx,found,rfl⟩
  · next neither =>
    refine .inr ⟨?_,rfl⟩
    rintro ⟨⟨use,tieBreaker,controlling⟩,-⟩
    apply neither
    rw [Bool.and_eq_true_iff,List.any_eq_true,List.any_eq_true]
    exact ⟨⟨_,use,rfl⟩,⟨_,controlling,rfl⟩⟩

theorem soleNominee_marked_iff (sole : agent.SoleNominee) {idx : Nat}
    (found : agent.checkList.findIdx? (fun p => p.remote.addr = source) = some idx) :
    Sole (markNominated agent.checkList idx) (some idx) ↔ ¬agent.Displaces source := by
  obtain ⟨pair,here,-⟩ := getElem?_of_findIdx? found
  refine (sole_modify_iff here (fun _ => rfl)).trans ⟨?_,?_⟩
  · rintro only ⟨idx',nominee,found',nominated,apart⟩
    cases found.symm.trans found'
    obtain ⟨p,there,flagged⟩ := (sole nominee).mp nominated
    exact apart (only nominee p there flagged)
  · intro kept i p there flagged
    by_contra apart
    exact kept ⟨idx,i,found,(sole i).mpr ⟨p,there,flagged⟩,apart⟩

theorem soleNominee_request_iff (sole : agent.SoleNominee) :
    ((agent.followNomination msg source).triggerCheck env source).SoleNominee ↔
      ¬(Nominating msg ∧ agent.Displaces source) := by
  rcases followNomination_cases agent msg source with ⟨nominating,idx,found,followed⟩ | ⟨kept,followed⟩
  · rw [followed,soleNominee_congr (nominations_triggerCheck rfl source)]
    refine (soleNominee_marked_iff sole found).trans ⟨fun kept both => kept both.2,fun kept displaces => ?_⟩
    exact kept ⟨nominating,displaces⟩
  · rw [followed]
    exact iff_of_true (sole.triggerCheck source) kept

theorem displaces_respond (agent : IceAgent) (msg : StunMessage) (source : SocketAddr) :
    (agent.respond env msg source).Displaces source ↔ agent.Displaces source := by
  unfold respond route
  dsimp only
  split <;> exact Iff.rfl

theorem soleNominee_handleBindingRequest_iff (sole : agent.SoleNominee) (raw : Bytes) :
    (agent.handleBindingRequest env raw msg source).SoleNominee ↔
      ¬(StunMessage.verifyIntegrity env.suite raw agent.config.localPwd.asBytes = .ok () ∧
        usernameValid msg agent.config.localUfrag = true ∧ Nominating msg ∧ agent.Displaces source) := by
  unfold handleBindingRequest
  cases StunMessage.verifyIntegrity env.suite raw agent.config.localPwd.asBytes with
  | error e => exact iff_of_true sole (fun accepted => (nomatch accepted.1))
  | ok _ =>
    dsimp only
    split
    · next named =>
      have asked : (agent.respond env msg source).SoleNominee :=
        (soleNominee_congr (nominations_route agent _ _)).mpr sole
      rw [soleNominee_request_iff asked,displaces_respond]
      exact not_congr ⟨fun both => ⟨rfl,named,both⟩,fun all => all.2.2⟩
    · next misnamed => exact iff_of_true sole (fun accepted => misnamed accepted.2.1)

/-- An accepted request that nominates a pair while another one is nominated. -/
def Conflicts (env : IceEnv) (agent : IceAgent) (data : Bytes) (source : SocketAddr) : Prop :=
  ∃ msg, Carries env data msg .request ∧
    StunMessage.verifyIntegrity env.suite data agent.config.localPwd.asBytes = .ok () ∧
    usernameValid msg agent.config.localUfrag = true ∧ Nominating msg ∧ agent.Displaces source

theorem soleNominee_handleIncoming_iff (sole : agent.SoleNominee) (data : Bytes) (source : SocketAddr) :
    (agent.handleIncoming env data source).SoleNominee ↔ ¬Conflicts env agent data source := by
  cases decoded : StunMessage.decode env.suite data with
  | error e =>
    refine iff_of_true (by simpa only [handleIncoming,decoded] using sole) ?_
    rintro ⟨msg,carries,-⟩
    cases decoded.symm.trans carries.1
  | ok msg =>
    have other {kind : StunClass} (kind' : msg.class' = kind) (apart : kind ≠ .request) :
        ¬Conflicts env agent data source := by
      rintro ⟨msg',carries,-⟩
      have carries' : Carries env data msg kind := ⟨decoded,kind'⟩
      exact apart (carries'.unique carries).2
    cases kind : msg.class' with
    | request =>
      have carries : Carries env data msg .request := ⟨decoded,kind⟩
      rw [handleIncoming_carried_request carries,soleNominee_handleBindingRequest_iff sole]
      refine not_congr ⟨fun accepted => ⟨msg,carries,accepted⟩,?_⟩
      rintro ⟨msg',carries',accepted⟩
      cases (carries.unique carries').1
      exact accepted
    | successResponse =>
      rw [handleIncoming_carried_response ⟨decoded,kind⟩]
      exact iff_of_true (sole.handleBindingResponse data msg source) (other kind (by decide))
    | errorResponse =>
      exact iff_of_true (by simpa only [handleIncoming,decoded,kind] using sole) (other kind (by decide))
    | indication =>
      exact iff_of_true (by simpa only [handleIncoming,decoded,kind] using sole) (other kind (by decide))

end Requests

section Lists

variable {agent : IceAgent}

theorem unflagged_freshPairs (agent : IceAgent) : ∀ p ∈ agent.freshPairs, p.nominated = false := by
  intro p member
  obtain ⟨l,-,r,-,made⟩ := mem_freshPairs member
  rw [made]
  rfl

theorem soleNominee_rebuild (agent : IceAgent) : agent.rebuildCheckList.SoleNominee := by
  have fresh := sole_unflagged (unflagged_freshPairs agent)
  have rebuilt := rebuild_rebuilt agent
  generalize agent.rebuildCheckList = agent' at rebuilt
  cases rebuilt with
  | unnominated lost => exact fresh
  | nominated p nominated idx found =>
    obtain ⟨q,here,-⟩ := getElem?_of_findIdx? found
    exact fresh.first here (fun _ => rfl)

theorem SoleNominee.extend {agent : IceAgent} (sole : agent.SoleNominee) {newLocal : Candidate}
    (distinct : ((agent.extendedPairs newLocal).1.map pairId).Nodup) :
    (agent.extendCheckList newLocal).SoleNominee := by
  have old : ∀ p ∈ (agent.extendedPairs newLocal).1, p.nominated = true → agent.nominatedPair = some p := by
    intro p member flagged
    rcases mem_extendedPairs.mp member with earlier | added
    · obtain ⟨i,here⟩ := List.getElem?_of_mem earlier
      rw [nominatedPair,(sole i).mpr ⟨p,here,flagged⟩]
      exact here
    · obtain ⟨q,crossed,numbered⟩ := mem_numberPairs added
      obtain ⟨r,-,rfl⟩ := List.mem_map.mp crossed
      rw [numbered] at flagged
      cases flagged
  have extended := extend_extended agent newLocal
  generalize agent.extendCheckList newLocal = agent' at extended
  cases extended with
  | unnominated nobody =>
    have idle : agent.nominatedIdx = none := by
      refine Option.eq_none_iff_forall_ne_some.mpr (fun i some => ?_)
      obtain ⟨p,here,-⟩ := (sole i).mp some
      rw [nominatedPair,some] at nobody
      cases here.symm.trans nobody
    rw [SoleNominee,idle]
    refine sole_unflagged (fun p member => Bool.eq_false_iff.mpr (fun flagged => ?_))
    cases nobody.symm.trans (old p member flagged)
  | nominated p nominated idx found =>
    obtain ⟨q,here,-,same⟩ := getElem?_of_findIdx? found
    refine (sole_modify_iff here (fun _ => rfl)).mpr (fun i p' there flagged => ?_)
    cases nominated.symm.trans (old p' (List.mem_of_getElem? there) flagged)
    have bound : i < ((agent.extendedPairs newLocal).1.map pairId).length := by
      rw [List.length_map]
      exact (List.getElem?_eq_some_iff.mp there).1
    apply (List.getElem?_inj bound distinct).mp
    rw [List.getElem?_map,List.getElem?_map,there,here]
    exact congrArg some (of_decide_eq_true same).symm

end Lists

section Calls

variable {env : IceEnv} {agent : IceAgent}

/-- The datagrams a drained inbox brings, each with the agent that handles it. -/
def drainHandled (env : IceEnv) : Nat → IceAgent → List (IceAgent × Datagram)
  | 0, _ => []
  | n + 1, agent =>
    match agent.inbox with
    | [] => []
    | (data,source) :: rest =>
      ({ agent with inbox := rest },(data.take recvBufferLen,source)) ::
        drainHandled env n ({ agent with inbox := rest }.handleIncoming env (data.take recvBufferLen) source)

def driveHandled (env : IceEnv) (agent : IceAgent) (arrivals : List Datagram) : List (IceAgent × Datagram) :=
  if agent.state = .checking then drainHandled env 64 ((agent.checkPairs env).2.receive arrivals) else []

/-- The datagrams a call handles, each with the agent it meets. -/
def handled (env : IceEnv) (agent : IceAgent) : IceCall → List (IceAgent × Datagram)
  | .step incoming _ arrivals =>
    (incoming.map (fun datagram => (agent,datagram))).toList ++ drainHandled env 64 (agent.taken env incoming) ++
      (agent.polled env incoming).driveHandled env arrivals
  | _ => []

/-- None of the datagrams nominates over another pair. -/
def Peaceful (env : IceEnv) (handled : List (IceAgent × Datagram)) : Prop :=
  ∀ h ∈ handled, ¬Conflicts env h.1 h.2.1 h.2.2

theorem SoleNominee.drainInbox (n : Nat) {agent : IceAgent} (sole : agent.SoleNominee)
    (peaceful : Peaceful env (drainHandled env n agent)) : (IceAgent.drainInbox env n agent).SoleNominee := by
  induction n generalizing agent with
  | zero => exact sole
  | succ n ih =>
    unfold drainHandled at peaceful
    unfold IceAgent.drainInbox
    cases waiting : agent.inbox with
    | nil => exact sole
    | cons datagram rest =>
      rw [waiting,Peaceful,List.forall_mem_cons] at peaceful
      have before : ({ agent with inbox := rest } : IceAgent).SoleNominee := sole
      exact ih ((soleNominee_handleIncoming_iff before _ _).mpr peaceful.1) peaceful.2

theorem SoleNominee.taken (sole : agent.SoleNominee) {incoming : Option Datagram}
    (peaceful : Peaceful env (incoming.map (fun datagram => (agent,datagram))).toList) :
    (agent.taken env incoming).SoleNominee := by
  cases incoming with
  | none => exact sole
  | some datagram =>
    exact (soleNominee_handleIncoming_iff sole _ _).mpr (peaceful (agent,datagram) (List.mem_singleton.mpr rfl))

theorem SoleNominee.checked (sole : agent.SoleNominee) {arrivals : List Datagram}
    (peaceful : Peaceful env (drainHandled env 64 ((agent.checkPairs env).2.receive arrivals))) :
    (agent.checked env arrivals).SoleNominee := by
  have checks := (soleNominee_congr (nominations_checkPairs env agent)).mpr sole
  have received : ((agent.checkPairs env).2.receive arrivals).SoleNominee := checks
  exact received.drainInbox 64 peaceful

theorem SoleNominee.gather (sole : agent.SoleNominee) : agent.gather.2.SoleNominee := by
  unfold IceAgent.gather
  split <;> exact sole

theorem SoleNominee.drive (sole : agent.SoleNominee) (nowUnixSecs : Int) {arrivals : List Datagram}
    (peaceful : Peaceful env (agent.driveHandled env arrivals)) :
    (agent.drive env nowUnixSecs arrivals).2.SoleNominee := by
  have busy (state : agent.state = .checking) : (agent.checked env arrivals).SoleNominee := by
    rw [driveHandled,if_pos state] at peaceful
    exact sole.checked peaceful
  have driven := drive_driven env agent nowUnixSecs arrivals
  generalize (agent.drive env nowUnixSecs arrivals).2 = agent' at driven
  cases driven with
  | idle => exact sole
  | gathered => exact sole.gather
  | started => exact soleNominee_rebuild agent
  | timedOut state => exact busy state
  | connected state => exact busy state
  | waiting state => exact busy state
  | failed => exact sole
  | restarted => exact sole_unflagged (fun _ none => (nomatch none))

theorem SoleNominee.step (sole : agent.SoleNominee) (incoming : Option Datagram) (nowUnixSecs : Int)
    (arrivals : List Datagram) (peaceful : Peaceful env (handled env agent (.step incoming nowUnixSecs arrivals))) :
    (agent.step env incoming nowUnixSecs arrivals).2.SoleNominee := by
  obtain ⟨outgoing,stepped⟩ := step_driven env agent incoming nowUnixSecs arrivals
  rw [handled,Peaceful,List.forall_mem_append,List.forall_mem_append] at peaceful
  obtain ⟨⟨first,inbox⟩,driving⟩ := peaceful
  have polled : (agent.polled env incoming).SoleNominee := (sole.taken first).drainInbox 64 inbox
  rw [stepped]
  exact polled.drive nowUnixSecs driving

theorem SoleNominee.perform {history : List Built} (ledger : Ledger env history agent) (sole : agent.SoleNominee)
    (call : IceCall) (bound : (IceAgent.perform env agent call).2.nextPairId < u64Max)
    (peaceful : Peaceful env (handled env agent call)) : (IceAgent.perform env agent call).2.SoleNominee := by
  cases call with
  | gather => exact sole.gather
  | addRelayCandidate relayAddr baseAddr =>
    have joined := ledger.addLocal (Candidate.new .relay relayAddr baseAddr 1)
    have added := addRelayCandidate_added agent relayAddr baseAddr
    change (agent.addRelayCandidate relayAddr baseAddr).2.nextPairId < u64Max at bound
    change (agent.addRelayCandidate relayAddr baseAddr).2.SoleNominee
    generalize (agent.addRelayCandidate relayAddr baseAddr).2 = agent' at added bound
    cases added with
    | refused => exact sole
    | joined => exact sole
    | extended =>
      rw [nextPairId_extendCheckList] at bound
      have before : ({ agent with localCandidates := agent.localCandidates ++ [Candidate.new .relay relayAddr baseAddr 1] } :
        IceAgent).SoleNominee := sole
      exact before.extend (joined.distinct_extended bound)
    | rebuilt => exact soleNominee_rebuild _
  | addRemoteCandidate candidate => exact soleNominee_rebuild _
  | checkPairs => exact (soleNominee_congr (nominations_checkPairs env agent)).mpr sole
  | arrive arrivals => exact sole
  | step incoming nowUnixSecs arrivals => exact sole.step incoming nowUnixSecs arrivals peaceful

end Calls

/-- The pairs whose flag is set are exactly the one at the nominated index, over every run that
numbers fewer pairs than its counter can and in which no accepted request nominates over another
pair; from a state where this holds, a datagram breaks it exactly by such a request. -/
theorem sole_nominee (env : IceEnv) (config : IceConfig) :
    (∀ calls, (final (perform env) (new config) calls).nextPairId < u64Max →
      (∀ e ∈ trace (perform env) (new config) calls, Peaceful env (handled env e.before e.call)) →
      (final (perform env) (new config) calls).SoleNominee) ∧
    ∀ agent : IceAgent, agent.SoleNominee → ∀ data source,
      ((agent.handleIncoming env data source).SoleNominee ↔ ¬Conflicts env agent data source) := by
  refine ⟨fun calls fewer peaceful => ?_,fun agent sole data source => soleNominee_handleIncoming_iff sole data source⟩
  induction calls using List.reverseRecOn with
  | nil => exact sole_unflagged (fun _ none => (nomatch none))
  | append_singleton earlier call ih =>
    rw [final_append] at fewer ⊢
    rw [trace_append,List.forall_mem_append] at peaceful
    have bound := (nextPairId_perform fewer).trans_lt fewer
    have now := peaceful.2 (fire (perform env) (final (perform env) (new config) earlier) call) (List.mem_singleton.mpr rfl)
    exact (ih bound peaceful.1).perform (ledger_run env config earlier bound) call fewer now

end Streamhaul.IceAgent

namespace Streamhaul.Transparent

open IceAgent

def nomination (n : Nat) : Bytes :=
  buildBindingRequest stun (tids n) .controlling 111 0 true (aliceConfig "same" "same").checkCreds

/-- The second agent knows two addresses of its peer, and is nominated over one of them. -/
def nominatedOnce : List IceCall :=
  [.gather,.addRemoteCandidate (Candidate.new .host addrA addrA 1),.addRemoteCandidate (Candidate.new .host addrC addrC 1),
    .step none 0 [],.step (some (nomination 0,addrA)) 1 []]

def nominatedTwice : List IceCall := nominatedOnce ++ [.step (some (nomination 1,addrC)) 2 []]

end Streamhaul.Transparent

namespace Streamhaul.IceAgent

open Machine Transparent

/-- After the first nomination the pair at the nominated index is the one that is flagged. -/
theorem nominated_once_sole :
    (final (perform ledgerEnv) (new (bobConfig "same" "same")) nominatedOnce).nominatedIdx = some 0 ∧
    (final (perform ledgerEnv) (new (bobConfig "same" "same")) nominatedOnce).SoleNominee := by
  have free : ∀ e ∈ trace (perform ledgerEnv) (new (bobConfig "same" "same")) nominatedOnce,
      ∀ h ∈ handled ledgerEnv e.before e.call, h.1.nominatedIdx = none := by
    decide +kernel
  refine ⟨by decide +kernel,(sole_nominee ledgerEnv (bobConfig "same" "same")).1 nominatedOnce (by decide +kernel) ?_⟩
  rintro e member h here ⟨msg,-,-,-,-,idx,nominee,-,nominated,-⟩
  cases (free e member h here).symm.trans nominated

/-- A second nomination, over the other address, leaves two pairs flagged. -/
theorem nominated_twice :
    (final (perform ledgerEnv) (new (bobConfig "same" "same")) nominatedTwice).nominatedIdx = some 1 ∧
    (final (perform ledgerEnv) (new (bobConfig "same" "same")) nominatedTwice).checkList.map CandidatePair.nominated =
      [true,true] ∧
    ¬(final (perform ledgerEnv) (new (bobConfig "same" "same")) nominatedTwice).SoleNominee := by
  have flags : (final (perform ledgerEnv) (new (bobConfig "same" "same")) nominatedTwice).checkList.map
      CandidatePair.nominated = [true,true] := by
    decide +kernel
  have index : (final (perform ledgerEnv) (new (bobConfig "same" "same")) nominatedTwice).nominatedIdx = some 1 := by
    decide +kernel
  refine ⟨index,flags,fun sole => ?_⟩
  have first := (sole_iff_flags.mp sole 0).mpr (by rw [flags]; rfl)
  cases index.symm.trans first

end Streamhaul.IceAgent
