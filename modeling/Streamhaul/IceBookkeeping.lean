import Streamhaul.IceCheckList
import Streamhaul.IceInterop

/-! Whole runs of the ICE agent: the ledger of requests is kept by every call, so the check
list, the transactions in flight and the nominated index stay consistent. -/
namespace Streamhaul

namespace IceAgent

open CandidatePair Machine

section Frame

variable (env : IceEnv) (agent : IceAgent)

/-- What neither checks nor incoming datagrams change. -/
def frame (agent : IceAgent) : IceState × Nat × List Candidate :=
  (agent.state,agent.nextPairId,agent.localCandidates)

theorem frame_route (viaRelay : Bool) (datagram : Datagram) : (agent.route viaRelay datagram).frame = agent.frame := by
  unfold route
  split <;> rfl

theorem frame_sendCheck (idx : Nat) (pair : CandidatePair) (nominate : Bool) (dest : SocketAddr) :
    (agent.sendCheck env idx pair nominate dest).frame = agent.frame := frame_route _ _ _

theorem frame_checkPair (idx : Nat) : (agent.checkPair env idx).frame = agent.frame := by
  unfold checkPair
  split
  · rfl
  · split
    · exact frame_sendCheck env _ _ _ _ _
    · rfl

theorem frame_checks (indices : List Nat) : (indices.foldl (checkPair env) agent).frame = agent.frame := by
  induction indices generalizing agent with
  | nil => rfl
  | cons idx rest ih => exact (ih _).trans (frame_checkPair env agent idx)

theorem frame_checkPairs : (agent.checkPairs env).2.frame = agent.frame := by
  unfold checkPairs
  split
  · rfl
  · exact frame_checks env agent _

theorem frame_followNomination (msg : StunMessage) (source : SocketAddr) :
    (agent.followNomination msg source).frame = agent.frame := by
  unfold followNomination
  dsimp only
  split
  · split <;> rfl
  · rfl

theorem frame_sendTriggered (idx : Nat) (source : SocketAddr) :
    (agent.sendTriggered env idx source).frame = agent.frame := by
  unfold sendTriggered
  split
  · rfl
  · next pair _ =>
    have checked := frame_sendCheck env agent idx pair (agent.isControlling && agent.nominatedIdx.isNone) source
    dsimp only
    split
    · exact checked
    · exact checked

theorem frame_triggerCheck (source : SocketAddr) : (agent.triggerCheck env source).frame = agent.frame := by
  unfold triggerCheck
  split
  · rfl
  · exact frame_sendTriggered env _ _ _

theorem frame_handleBindingRequest (raw : Bytes) (msg : StunMessage) (source : SocketAddr) :
    (agent.handleBindingRequest env raw msg source).frame = agent.frame := by
  unfold handleBindingRequest
  split
  · rfl
  · split
    · rw [frame_triggerCheck,frame_followNomination]
      exact frame_route _ _ _
    · rfl

theorem frame_confirmPair (pairIdx : Nat) (pair : CandidatePair) (source : SocketAddr) :
    (agent.confirmPair env pairIdx pair source).frame = agent.frame := by
  unfold confirmPair
  dsimp only
  split
  · exact frame_sendCheck env _ _ _ _ _
  · rfl

theorem frame_handleBindingResponse (raw : Bytes) (msg : StunMessage) (source : SocketAddr) :
    (agent.handleBindingResponse env raw msg source).frame = agent.frame := by
  unfold handleBindingResponse
  split
  · rfl
  · split
    · rfl
    · split
      · rfl
      · dsimp only
        split
        · rfl
        · split
          · rfl
          · exact frame_confirmPair env _ _ _ _

theorem frame_handleIncoming (data : Bytes) (source : SocketAddr) :
    (agent.handleIncoming env data source).frame = agent.frame := by
  unfold handleIncoming
  split
  · rfl
  · split
    · exact frame_handleBindingRequest env agent data _ source
    · exact frame_handleBindingResponse env agent data _ source
    · rfl
    · rfl

theorem frame_drainInbox (n : Nat) : (drainInbox env n agent).frame = agent.frame := by
  induction n generalizing agent with
  | zero => rfl
  | succ n ih =>
    unfold drainInbox
    split
    · rfl
    · exact (ih _).trans (frame_handleIncoming env _ _ _)

end Frame

/-- What can be done with an agent, and what can reach its socket. -/
inductive IceCall where
  | gather
  | addRelayCandidate (relayAddr baseAddr : SocketAddr)
  | addRemoteCandidate (candidate : Candidate)
  | checkPairs
  | arrive (arrivals : List Datagram)
  | step (incoming : Option Datagram) (nowUnixSecs : Int) (arrivals : List Datagram)

def perform (env : IceEnv) (agent : IceAgent) : IceCall → List Built × IceAgent
  | .gather => ([],agent.gather.2)
  | .addRelayCandidate relayAddr baseAddr => ([],(agent.addRelayCandidate relayAddr baseAddr).2)
  | .addRemoteCandidate candidate => ([],agent.addRemoteCandidate candidate)
  | .checkPairs => (agent.checkPairsBuilt env,(agent.checkPairs env).2)
  | .arrive arrivals => ([],agent.receive arrivals)
  | .step incoming nowUnixSecs arrivals =>
    (agent.stepBuilt env incoming arrivals,(agent.step env incoming nowUnixSecs arrivals).2)

inductive RelayAdded (agent : IceAgent) (c : Candidate) : IceAgent → Prop
  | refused : RelayAdded agent c agent
  | joined : RelayAdded agent c { agent with localCandidates := agent.localCandidates ++ [c] }
  | extended : RelayAdded agent c ({ agent with localCandidates := agent.localCandidates ++ [c] }.extendCheckList c)
  | rebuilt : RelayAdded agent c { agent with localCandidates := agent.localCandidates ++ [c] }.rebuildCheckList

theorem addRelayCandidate_added (agent : IceAgent) (relayAddr baseAddr : SocketAddr) :
    RelayAdded agent (Candidate.new .relay relayAddr baseAddr 1) (agent.addRelayCandidate relayAddr baseAddr).2 := by
  unfold addRelayCandidate
  split
  case h_4 => exact .refused
  all_goals
    dsimp only
    split
    · exact .joined
    · split
      · exact .extended
      · exact .rebuilt

/-- The agent of a checking step once its checks are out and the answers are in. -/
def checked (env : IceEnv) (agent : IceAgent) (arrivals : List Datagram) : IceAgent :=
  ((agent.checkPairs env).2.receive arrivals).drainTransportInbox env

theorem frame_checked (env : IceEnv) (agent : IceAgent) (arrivals : List Datagram) :
    (agent.checked env arrivals).frame = agent.frame :=
  (frame_drainInbox env ((agent.checkPairs env).2.receive arrivals) 64).trans (frame_checkPairs env agent)

theorem frame_polled (env : IceEnv) (agent : IceAgent) (incoming : Option Datagram) :
    (agent.polled env incoming).frame = agent.frame := by
  have taken : (agent.taken env incoming).frame = agent.frame := by
    cases incoming with
    | none => rfl
    | some datagram => exact frame_handleIncoming env agent datagram.1 datagram.2
  exact (frame_drainInbox env _ 64).trans taken

inductive Driven (env : IceEnv) (agent : IceAgent) (nowUnixSecs : Int) (arrivals : List Datagram) : IceAgent → Prop
  | idle (quiet : agent.state ≠ .checking) : Driven env agent nowUnixSecs arrivals agent
  | gathered (quiet : agent.state = .new) : Driven env agent nowUnixSecs arrivals agent.gather.2
  | started (quiet : agent.state = .gathering) : Driven env agent nowUnixSecs arrivals
      { agent.rebuildCheckList with state := .checking, checkingStartedUs := some (satMulI64 nowUnixSecs 1000000) }
  | timedOut (checking : agent.state = .checking) : Driven env agent nowUnixSecs arrivals
      { agent.checked env arrivals with state := .failed }
  | connected (checking : agent.state = .checking) (nominated : (agent.checked env arrivals).nominatedIdx.isSome = true) :
      Driven env agent nowUnixSecs arrivals { agent.checked env arrivals with state := .connected }
  | waiting (checking : agent.state = .checking) : Driven env agent nowUnixSecs arrivals (agent.checked env arrivals)
  | failed (quiet : agent.state = .failed) : Driven env agent nowUnixSecs arrivals { agent with state := .restarting }
  | restarted (quiet : agent.state = .restarting) : Driven env agent nowUnixSecs arrivals { agent with
      localCandidates := [], remoteCandidates := [], checkList := [], nominatedIdx := none
      checkingStartedUs := none, inFlight := [], state := .new }

theorem drive_driven (env : IceEnv) (agent : IceAgent) (nowUnixSecs : Int) (arrivals : List Datagram) :
    Driven env agent nowUnixSecs arrivals (agent.drive env nowUnixSecs arrivals).2 := by
  cases state : agent.state with
  | new =>
    simp only [drive,state]
    split
    · exact .idle (by rw [state]; decide)
    · exact .gathered state
  | gathering =>
    simp only [drive,state]
    split
    · exact .idle (by rw [state]; decide)
    · exact .started state
  | checking =>
    simp only [drive,state]
    split
    all_goals
      split
      · exact .timedOut state
      · split
        · next nominated => exact .connected state nominated
        · exact .waiting state
  | connected =>
    simp only [drive,state]
    exact .idle (by rw [state]; decide)
  | failed =>
    simp only [drive,state]
    exact .failed state
  | restarting =>
    simp only [drive,state]
    exact .restarted state

theorem step_driven (env : IceEnv) (agent : IceAgent) (incoming : Option Datagram) (nowUnixSecs : Int)
    (arrivals : List Datagram) : ∃ outgoing, (agent.step env incoming nowUnixSecs arrivals).2 =
      { ((agent.polled env incoming).drive env nowUnixSecs arrivals).2 with outgoing := outgoing } := by
  rcases driven : (agent.polled env incoming).drive env nowUnixSecs arrivals with ⟨_ | _,agent'⟩
  · refine ⟨agent'.outgoing,?_⟩
    cases incoming <;> simp_all only [polled,taken,step]
  · refine ⟨[],?_⟩
    cases incoming <;> simp_all only [polled,taken,step]

section Calls

variable {env : IceEnv} {history : List Built} {agent : IceAgent} (ledger : Ledger env history agent)

include ledger

/-- Outside of the checking and connected states nothing depends on the candidates. -/
theorem Ledger.outside {state : IceState} {localCandidates : List Candidate}
    (idle : state ≠ .checking ∧ state ≠ .connected) :
    Ledger env history { agent with state := state, localCandidates := localCandidates } :=
  { ledger with
    known := fun active => absurd active (not_or.mpr idle)
    connected := fun active => absurd active idle.2 }

theorem Ledger.gather : Ledger env history agent.gather.2 := by
  unfold IceAgent.gather
  split
  · exact ledger.outside ⟨by decide,by decide⟩
  · exact ledger.outside ⟨by decide,by decide⟩

theorem Ledger.addLocal (candidate : Candidate) :
    Ledger env history { agent with localCandidates := agent.localCandidates ++ [candidate] } :=
  { ledger with
    known := fun active p member =>
      ⟨List.mem_append_left _ (ledger.known active p member).1,(ledger.known active p member).2⟩ }

theorem Ledger.addRemote (candidate : Candidate) :
    Ledger env history { agent with remoteCandidates := agent.remoteCandidates ++ [candidate] } :=
  { ledger with
    known := fun active p member =>
      ⟨(ledger.known active p member).1,List.mem_append_left _ (ledger.known active p member).2⟩ }

theorem Ledger.addRelayCandidate (relayAddr baseAddr : SocketAddr)
    (bound : (agent.addRelayCandidate relayAddr baseAddr).2.nextPairId < u64Max) :
    Ledger env history (agent.addRelayCandidate relayAddr baseAddr).2 := by
  have joined := ledger.addLocal (Candidate.new .relay relayAddr baseAddr 1)
  have added := addRelayCandidate_added agent relayAddr baseAddr
  generalize (agent.addRelayCandidate relayAddr baseAddr).2 = agent' at added bound
  cases added with
  | refused => exact ledger
  | joined => exact joined
  | extended => exact joined.extend (List.mem_append_right _ (List.mem_singleton.mpr rfl)) bound
  | rebuilt => exact (joined.rebuild bound).1

theorem Ledger.restart : Ledger env history { agent with
    localCandidates := [], remoteCandidates := [], checkList := [], nominatedIdx := none
    checkingStartedUs := none, inFlight := [], state := .new } where
  drawn := ledger.drawn
  inFlight t member := by cases member
  distinct := List.nodup_nil
  issued p member := by cases member
  elected i none := by cases none
  known active := by rcases active with other | other <;> cases other
  connected active := by cases active

theorem Ledger.checked (arrivals : List Datagram) : Ledger env
    (history ++ (agent.checkPairsBuilt env ++ drainBuilt env 64 ((agent.checkPairs env).2.receive arrivals)))
    (agent.checked env arrivals) := by
  have received : Ledger env (history ++ agent.checkPairsBuilt env) ((agent.checkPairs env).2.receive arrivals) :=
    { ledger.checkPairs with }
  rw [← List.append_assoc]
  exact Ledger.drainInbox 64 received

theorem Ledger.drive (nowUnixSecs : Int) (arrivals : List Datagram)
    (bound : (agent.drive env nowUnixSecs arrivals).2.nextPairId < u64Max) :
    Ledger env (history ++ agent.driveBuilt env arrivals) (agent.drive env nowUnixSecs arrivals).2 := by
  have quiet (state : agent.state ≠ .checking) {agent' : IceAgent} (kept : Ledger env history agent') :
      Ledger env (history ++ agent.driveBuilt env arrivals) agent' := by
    rw [driveBuilt,if_neg state,List.append_nil]
    exact kept
  have busy (state : agent.state = .checking) :
      Ledger env (history ++ agent.driveBuilt env arrivals) (agent.checked env arrivals) := by
    rw [driveBuilt,if_pos state]
    exact ledger.checked arrivals
  have driven := drive_driven env agent nowUnixSecs arrivals
  generalize (agent.drive env nowUnixSecs arrivals).2 = agent' at driven bound
  cases driven with
  | idle state => exact quiet state ledger
  | gathered state => exact quiet (by rw [state]; decide) ledger.gather
  | started state =>
    obtain ⟨rebuilt,known⟩ := ledger.rebuild bound
    apply quiet (by rw [state]; decide)
    exact { rebuilt with known := fun _ => known, connected := fun active => by cases active }
  | timedOut state => exact (busy state).outside ⟨by decide,by decide⟩
  | connected state nominated =>
    have checking : (agent.checked env arrivals).state = .checking :=
      (congrArg Prod.fst (frame_checked env agent arrivals)).trans state
    exact { busy state with
      known := fun _ => (busy state).known (.inl checking)
      connected := fun _ => nominated }
  | waiting state => exact busy state
  | failed state => exact quiet (by rw [state]; decide) (ledger.outside ⟨by decide,by decide⟩)
  | restarted state => exact quiet (by rw [state]; decide) ledger.restart

theorem Ledger.polled (incoming : Option Datagram) : Ledger env
    (history ++ (agent.takenBuilt env incoming ++ drainBuilt env 64 (agent.taken env incoming)))
    (agent.polled env incoming) := by
  have taken : Ledger env (history ++ agent.takenBuilt env incoming) (agent.taken env incoming) := by
    cases incoming with
    | none => exact (List.append_nil history).symm ▸ ledger
    | some datagram => exact ledger.handleIncoming datagram.1 datagram.2
  have drained := Ledger.drainInbox 64 taken
  rw [← List.append_assoc]
  exact { drained with }

theorem Ledger.step (incoming : Option Datagram) (nowUnixSecs : Int) (arrivals : List Datagram)
    (bound : (agent.step env incoming nowUnixSecs arrivals).2.nextPairId < u64Max) :
    Ledger env (history ++ agent.stepBuilt env incoming arrivals) (agent.step env incoming nowUnixSecs arrivals).2 := by
  obtain ⟨outgoing,stepped⟩ := step_driven env agent incoming nowUnixSecs arrivals
  rw [stepped] at bound ⊢
  have driven := (ledger.polled incoming).drive nowUnixSecs arrivals bound
  rw [stepBuilt,← List.append_assoc (agent.takenBuilt env incoming),← List.append_assoc]
  exact { driven with }

theorem Ledger.perform (call : IceCall) (bound : (perform env agent call).2.nextPairId < u64Max) :
    Ledger env (history ++ (perform env agent call).1) (perform env agent call).2 := by
  have silent {agent' : IceAgent} (kept : Ledger env history agent') : Ledger env (history ++ []) agent' :=
    (List.append_nil history).symm ▸ kept
  cases call with
  | gather => exact silent ledger.gather
  | addRelayCandidate relayAddr baseAddr => exact silent (ledger.addRelayCandidate relayAddr baseAddr bound)
  | addRemoteCandidate candidate => exact silent ((ledger.addRemote candidate).rebuild bound).1
  | checkPairs => exact ledger.checkPairs
  | arrive arrivals => exact silent { ledger with }
  | step incoming nowUnixSecs arrivals => exact ledger.step incoming nowUnixSecs arrivals bound

end Calls

section Counter

variable {env : IceEnv} {agent : IceAgent}

theorem nextPairId_rebuild (bound : agent.rebuildCheckList.nextPairId < u64Max) :
    agent.nextPairId ≤ agent.rebuildCheckList.nextPairId := by
  obtain ⟨_,_,rebuilt,_⟩ := rebuild_spec agent
  rw [rebuilt] at bound ⊢
  exact Nat.le.intro (numberPairs_spec bound).1.symm

theorem nextPairId_extend {newLocal : Candidate} (bound : (agent.extendCheckList newLocal).nextPairId < u64Max) :
    agent.nextPairId ≤ (agent.extendCheckList newLocal).nextPairId := by
  rw [nextPairId_extendCheckList] at bound ⊢
  exact Nat.le.intro (numberPairs_spec bound).1.symm

theorem nextPairId_drive {nowUnixSecs : Int} {arrivals : List Datagram}
    (bound : (agent.drive env nowUnixSecs arrivals).2.nextPairId < u64Max) :
    agent.nextPairId ≤ (agent.drive env nowUnixSecs arrivals).2.nextPairId := by
  have checked : (agent.checked env arrivals).nextPairId = agent.nextPairId :=
    congrArg (·.2.1) (frame_checked env agent arrivals)
  have driven := drive_driven env agent nowUnixSecs arrivals
  generalize (agent.drive env nowUnixSecs arrivals).2 = agent' at driven bound
  cases driven with
  | gathered =>
    unfold gather
    split <;> exact le_rfl
  | started => exact nextPairId_rebuild bound
  | timedOut => exact checked.ge
  | connected => exact checked.ge
  | waiting => exact checked.ge
  | _ => exact le_rfl

/-- The counter of pair ids never falls back. -/
theorem nextPairId_perform {call : IceCall} (bound : (perform env agent call).2.nextPairId < u64Max) :
    agent.nextPairId ≤ (perform env agent call).2.nextPairId := by
  cases call with
  | gather =>
    unfold perform gather
    dsimp only
    split <;> exact le_rfl
  | addRelayCandidate relayAddr baseAddr =>
    have added := addRelayCandidate_added agent relayAddr baseAddr
    unfold perform at bound ⊢
    dsimp only at bound ⊢
    generalize (agent.addRelayCandidate relayAddr baseAddr).2 = agent' at added bound
    cases added with
    | refused => exact le_rfl
    | joined => exact le_rfl
    | extended => exact nextPairId_extend bound
    | rebuilt => exact nextPairId_rebuild bound
  | addRemoteCandidate candidate => exact nextPairId_rebuild bound
  | checkPairs => exact (congrArg (·.2.1) (frame_checkPairs env agent)).ge
  | arrive arrivals => exact le_rfl
  | step incoming nowUnixSecs arrivals =>
    have polled : (agent.polled env incoming).nextPairId = agent.nextPairId :=
      congrArg (·.2.1) (frame_polled env agent incoming)
    obtain ⟨outgoing,stepped⟩ := step_driven env agent incoming nowUnixSecs arrivals
    unfold perform at bound ⊢
    rw [stepped] at bound ⊢
    exact polled ▸ nextPairId_drive bound

end Counter

def built (env : IceEnv) (config : IceConfig) (calls : List IceCall) : List Built :=
  ((trace (perform env) (new config) calls).map Event.response).flatten

theorem ledger_run (env : IceEnv) (config : IceConfig) (calls : List IceCall)
    (bound : (final (perform env) (new config) calls).nextPairId < u64Max) :
    Ledger env (built env config calls) (final (perform env) (new config) calls) := by
  have initial : Ledger env [] (new config) := by
    refine ⟨rfl,?_,List.nodup_nil,?_,?_,?_,?_⟩
    · intro t member
      cases member
    · intro p member
      cases member
    · intro i none
      cases none
    · intro active
      rcases active with other | other <;> cases other
    · intro active
      cases active
  have run := history_invariant (perform env) (fun e => some e.response) (fun _ _ => True)
    (fun history agent => agent.nextPairId < u64Max → Ledger env history.flatten agent)
    (fun history agent call _ kept bound => by
      have ledger := (kept ((nextPairId_perform bound).trans_lt bound)).perform call bound
      simpa [fire] using ledger) [] (new config) calls (fun _ => initial) (fun _ _ => trivial) bound
  simpa [built,List.filterMap_eq_map] using run

theorem built_unique {env : IceEnv} {history : List Built} {agent : IceAgent} (ledger : Ledger env history agent)
    (distinct : ∀ i j, i < agent.drawn → j < agent.drawn → env.tid i = env.tid j → i = j) {tid : TransactionId} {a b : Nat}
    (first : (tid,a) ∈ history) (second : (tid,b) ∈ history) : a = b := by
  have nodup : (history.map Prod.fst).Nodup := by
    rw [ledger.drawn]
    apply List.Nodup.map_on _ List.nodup_range
    intro i below j below' same
    exact distinct i j (List.mem_range.mp below) (List.mem_range.mp below') same
  have same := List.inj_on_of_nodup_map nodup first second rfl
  cases same
  rfl

end IceAgent

namespace Transparent

open IceAgent Machine

def ledgerEnv : IceEnv := ⟨stun,tids⟩

/-- An agent gathers, learns two candidates of its peer and checks both pairs. -/
def twoChecks : List IceCall :=
  [.gather,.addRemoteCandidate (Candidate.new .host addrB addrB 1),
    .addRemoteCandidate (Candidate.new .host addrC addrC 1),.step none 0 [],.step none 1 [],.step none 2 []]

theorem twoChecks_drawn : (final (perform ledgerEnv) (IceAgent.new (aliceConfig "a" "b")) twoChecks).drawn = 2 := by
  decide +kernel

end Transparent

namespace IceAgent

open CandidatePair Machine Transparent

/-- Over every sequence of calls, with fewer pairs created than the counter can number: every
transaction in flight points to the one pair its request was built for, pair ids are
distinct, the nominated index is that of a nominated and succeeded pair, and a connected
agent has one. -/
theorem check_list_consistent (env : IceEnv) (config : IceConfig) (calls : List IceCall)
    (fewer : (final (perform env) (new config) calls).nextPairId < u64Max)
    (distinct : ∀ i j, i < (final (perform env) (new config) calls).drawn →
      j < (final (perform env) (new config) calls).drawn → env.tid i = env.tid j → i = j) :
    (∀ t ∈ (final (perform env) (new config) calls).inFlight,
      ∃ pair, (final (perform env) (new config) calls).checkList[t.2]? = some pair ∧
        ∀ id, (t.1,id) ∈ built env config calls ↔ id = pair.pairId) ∧
    ((final (perform env) (new config) calls).checkList.map pairId).Nodup ∧
    (∀ i, (final (perform env) (new config) calls).nominatedIdx = some i →
      ∃ pair, (final (perform env) (new config) calls).checkList[i]? = some pair ∧ pair.nominated = true ∧
        pair.state = .succeeded) ∧
    ((final (perform env) (new config) calls).state = .connected →
      (final (perform env) (new config) calls).nominatedIdx.isSome = true) := by
  have ledger := ledger_run env config calls fewer
  refine ⟨?_,ledger.distinct,ledger.elected,ledger.connected⟩
  intro t member
  obtain ⟨pair,here,logged⟩ := ledger.inFlight t member
  refine ⟨pair,here,fun id => ⟨fun other => built_unique ledger distinct other logged,?_⟩⟩
  rintro rfl
  exact logged

/-- With two checks under way, each transaction is that of the pair its request was built for. -/
theorem two_checks_consistent :
    (final (perform ledgerEnv) (new (aliceConfig "a" "b")) twoChecks).inFlight = [(tids 0,0),(tids 1,1)] ∧
    ∀ t ∈ (final (perform ledgerEnv) (new (aliceConfig "a" "b")) twoChecks).inFlight,
      ∃ pair, (final (perform ledgerEnv) (new (aliceConfig "a" "b")) twoChecks).checkList[t.2]? = some pair ∧
        ∀ id, (t.1,id) ∈ built ledgerEnv (aliceConfig "a" "b") twoChecks ↔ id = pair.pairId := by
  have distinct : ∀ i j, i < (final (perform ledgerEnv) (new (aliceConfig "a" "b")) twoChecks).drawn →
      j < (final (perform ledgerEnv) (new (aliceConfig "a" "b")) twoChecks).drawn →
      ledgerEnv.tid i = ledgerEnv.tid j → i = j := by
    have apart : ∀ i < 2, ∀ j < 2, ledgerEnv.tid i = ledgerEnv.tid j → i = j := by decide +kernel
    rw [twoChecks_drawn]
    exact fun i j first second => apart i first j second
  exact ⟨by decide +kernel,
    (check_list_consistent ledgerEnv (aliceConfig "a" "b") twoChecks (by decide +kernel) distinct).1⟩

end IceAgent

end Streamhaul