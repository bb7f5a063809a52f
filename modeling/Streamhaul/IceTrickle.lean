import Streamhaul.IceNomination

/-! Candidates that arrive late. A new remote candidate rebuilds the check list of a connected
agent and finds the nominated pair again by a part of its path; a new relay candidate extends the list and
finds it by its id. -/
namespace Streamhaul.IceAgent

open CandidatePair Machine

section Sorting

variable {α : Type} {rank : α → Nat} {p : α → Bool}

theorem find?_orderedInsert {x y : α} {l : List α}
    (found : (l.orderedInsert (fun a b => rank b ≤ rank a) x).find? p = some y) :
    y = x ∨ l.find? p = some y ∧ (p x = true → rank x < rank y) := by
  induction l with
  | nil =>
    rw [List.orderedInsert_nil,List.find?_singleton] at found
    split_ifs at found
    exact .inl (Option.some.inj found).symm
  | cons z rest ih =>
    by_cases first : rank z ≤ rank x
    · rw [List.orderedInsert_cons_of_le _ rest first] at found
      cases matched : p x with
      | true =>
        rw [List.find?_cons_of_pos matched] at found
        exact .inl (Option.some.inj found).symm
      | false =>
        rw [List.find?_cons_of_neg (by simp [matched])] at found
        exact .inr ⟨found,fun wrong => (nomatch wrong)⟩
    · rw [List.orderedInsert_of_not_le _ rest first] at found
      cases matched : p z with
      | true =>
        rw [List.find?_cons_of_pos matched] at found ⊢
        cases found
        exact .inr ⟨rfl,fun _ => Nat.not_le.mp first⟩
      | false =>
        rw [List.find?_cons_of_neg (by simp [matched])] at found ⊢
        exact ih found

/-- What is found first in a stably sorted list outranks all that match before it. -/
theorem find?_insertionSort {y : α} {l : List α}
    (found : (l.insertionSort (fun a b => rank b ≤ rank a)).find? p = some y) :
    ∃ before after, l = before ++ y :: after ∧ ∀ a ∈ before, p a = true → rank a < rank y := by
  induction l with
  | nil => cases found
  | cons x rest ih =>
    rw [List.insertionSort_cons] at found
    rcases find?_orderedInsert found with rfl | ⟨later,lower⟩
    · exact ⟨[],rest,rfl,fun _ none => (nomatch none)⟩
    · obtain ⟨before,after,rfl,outranked⟩ := ih later
      exact ⟨x :: before,after,rfl,List.forall_mem_cons.mpr ⟨lower,outranked⟩⟩

end Sorting

/-- In a product, what comes after the row of an element comes after all of that row. -/
theorem product_split {α β : Type} {before after : List α} {row x : α} {columns : List β} {y : β} {front back : List (α × β)}
    (split : (before ++ row :: after).flatMap (fun a => columns.map (fun b => (a,b))) = front ++ (x,y) :: back) :
    x ∈ before ++ [row] ∨ (row,y) ∈ front := by
  have member : (x,y) ∈ front ++ (x,y) :: back := List.mem_append_right _ List.mem_cons_self
  rw [← split,List.mem_flatMap] at member
  obtain ⟨_,-,column⟩ := member
  obtain ⟨_,column,same⟩ := List.mem_map.mp column
  cases same
  have rows : (row,y) ∈ (before ++ [row]).flatMap (fun a => columns.map (fun b => (a,b))) :=
    List.mem_flatMap.mpr ⟨row,List.mem_append_right _ (List.mem_singleton.mpr rfl),List.mem_map.mpr ⟨y,column,rfl⟩⟩
  rw [List.append_cons,List.flatMap_append] at split
  rcases List.append_eq_append_iff.mp split with ⟨rest,rfl,-⟩ | ⟨rest,whole,tail⟩
  · exact .inr (List.mem_append_left _ rows)
  · cases rest with
    | nil =>
      rw [List.append_nil] at whole
      exact .inr (whole ▸ rows)
    | cons first rest =>
      obtain ⟨rfl,-⟩ := List.cons.inj tail
      have here : (x,y) ∈ (before ++ [row]).flatMap (fun a => columns.map (fun b => (a,b))) := by
        rw [whole]
        exact List.mem_append_right _ List.mem_cons_self
      obtain ⟨a,member,inner⟩ := List.mem_flatMap.mp here
      obtain ⟨b,-,same⟩ := List.mem_map.mp inner
      cases same
      exact .inl member

/-- Every local candidate was made by the agent for its one component. -/
def Minted (agent : IceAgent) : Prop :=
  ∀ l ∈ agent.localCandidates, l.priority = computePriority l.kind 65535 1

section Rebuild

variable {agent : IceAgent}

theorem priority_freshPairs {p : CandidatePair} (member : p ∈ agent.freshPairs) :
    p.priority = computePairPriority p.localCandidate.priority p.remote.priority agent.isControlling := by
  obtain ⟨l,-,r,-,made⟩ := mem_freshPairs member
  rw [made]
  rfl

def endpoints (p : CandidatePair) : Candidate × Candidate := (p.localCandidate,p.remote)

theorem endpoints_crossPairs (agent : IceAgent) : agent.crossPairs.map endpoints =
    agent.localCandidates.flatMap (fun l => agent.remoteCandidates.map (fun r => (l,r))) := by
  simp [crossPairs,List.map_flatMap,endpoints,Function.comp_def,CandidatePair.new]

theorem find?_freshPairs (minted : agent.Minted) {kind : CandidateKind} {base addr : SocketAddr} {remoteKind : CandidateKind}
    {q : CandidatePair} (found : agent.freshPairs.find? (fun q => pathKey q = (base,kind,addr,remoteKind)) = some q) :
    agent.localCandidates.find? (fun l => l.kind = kind ∧ l.base = base) = some q.localCandidate := by
  have path : pathKey q = (base,kind,addr,remoteKind) := by simpa using List.find?_some found
  obtain ⟨rfl,rfl,rfl,rfl⟩ : q.localCandidate.base = base ∧ q.localCandidate.kind = kind ∧ q.remote.addr = addr ∧
    q.remote.kind = remoteKind := by simpa using path
  have own : q.localCandidate ∈ agent.localCandidates := by
    obtain ⟨l,own,r,-,made⟩ := mem_freshPairs (List.mem_of_find?_eq_some found)
    rw [made]
    exact own
  cases first : agent.localCandidates.find? (fun l => l.kind = q.localCandidate.kind ∧ l.base = q.localCandidate.base) with
  | none =>
    have differs := List.find?_eq_none.mp first q.localCandidate own
    simp at differs
  | some l =>
    obtain ⟨like,earlier,later,split,unlike⟩ := List.find?_eq_some_iff_append.mp first
    obtain ⟨kind,base⟩ : l.kind = q.localCandidate.kind ∧ l.base = q.localCandidate.base := by simpa using like
    have listed : l ∈ agent.localCandidates := split ▸ List.mem_append_right _ List.mem_cons_self
    obtain ⟨front,back,numbered,outranked⟩ := find?_insertionSort found
    have product : (earlier ++ l :: later).flatMap (fun l => agent.remoteCandidates.map (fun r => (l,r))) =
        front.map endpoints ++ (q.localCandidate,q.remote) :: back.map endpoints := by
      have mapped := congrArg (List.map endpoints) numbered
      rw [List.map_append,List.map_cons] at mapped
      rw [← split,← endpoints_crossPairs]
      exact (numberPairs_endpoints _ _).symm.trans mapped
    rcases product_split product with before | passed
    · rcases List.mem_append.mp before with wrong | same
      · have differs := unlike q.localCandidate wrong
        simp at differs
      · rw [List.mem_singleton.mp same]
    · obtain ⟨a,member,ends⟩ := List.mem_map.mp passed
      obtain ⟨local',remote⟩ := Prod.mk.inj ends
      have fresh : a ∈ agent.freshPairs := by
        refine (sortPairs_perm _).mem_iff.mpr ?_
        rw [numbered]
        exact List.mem_append_left _ member
      have lower := outranked a member (by simp [local',remote,kind,base])
      rw [priority_freshPairs fresh,priority_freshPairs (List.mem_of_find?_eq_some found),local',remote,minted l listed,
        minted q.localCandidate own,kind] at lower
      exact absurd lower (Nat.lt_irrefl _)

end Rebuild

/-- The ends of a pair: kind, address and base of its local candidate, kind and address of the remote one. -/
def path (p : CandidatePair) : CandidateKind × SocketAddr × SocketAddr × CandidateKind × SocketAddr :=
  (p.localCandidate.kind,p.localCandidate.addr,p.localCandidate.base,p.remote.kind,p.remote.addr)

/-- The first local candidate with the kind and base of this one has its address too. -/
def Distinguished (agent : IceAgent) (own : Candidate) : Prop :=
  ∃ first, agent.localCandidates.find? (fun l => l.kind = own.kind ∧ l.base = own.base) = some first ∧
    first.addr = own.addr

section Minted

variable {env : IceEnv} {agent : IceAgent}

theorem Minted.concat (minted : agent.Minted) (relayAddr baseAddr : SocketAddr) :
    ∀ l ∈ agent.localCandidates ++ [Candidate.new .relay relayAddr baseAddr 1],
      l.priority = computePriority l.kind 65535 1 := by
  rw [List.forall_mem_append,List.forall_mem_singleton]
  exact ⟨minted,rfl⟩

theorem Minted.gather (minted : agent.Minted) : agent.gather.2.Minted := by
  unfold IceAgent.gather
  split
  · exact minted
  · intro l member
    obtain ⟨addr,-,rfl⟩ := List.mem_map.mp member
    rfl

theorem minted_congr {agent' : IceAgent} (same : agent'.frame = agent.frame) (minted : agent.Minted) : agent'.Minted := by
  have candidates : agent'.localCandidates = agent.localCandidates := congrArg (·.2.2) same
  rw [Minted,candidates]
  exact minted

theorem Minted.drive (minted : agent.Minted) (nowUnixSecs : Int) (arrivals : List Datagram) :
    (agent.drive env nowUnixSecs arrivals).2.Minted := by
  have busy := minted_congr (frame_checked env agent arrivals) minted
  have driven := drive_driven env agent nowUnixSecs arrivals
  generalize (agent.drive env nowUnixSecs arrivals).2 = agent' at driven
  cases driven with
  | idle => exact minted
  | gathered => exact minted.gather
  | started =>
    obtain ⟨_,_,rebuilt,-⟩ := rebuild_spec agent
    rw [rebuilt]
    exact minted
  | timedOut => exact busy
  | connected => exact busy
  | waiting => exact busy
  | failed => exact minted
  | restarted => exact fun _ none => (nomatch none)

theorem Minted.perform (minted : agent.Minted) (call : IceCall) : (IceAgent.perform env agent call).2.Minted := by
  cases call with
  | gather => exact minted.gather
  | addRelayCandidate relayAddr baseAddr =>
    have added := addRelayCandidate_added agent relayAddr baseAddr
    change (agent.addRelayCandidate relayAddr baseAddr).2.Minted
    generalize (agent.addRelayCandidate relayAddr baseAddr).2 = agent' at added
    cases added with
    | refused => exact minted
    | joined => exact minted.concat relayAddr baseAddr
    | extended =>
      have extended := extend_extended
        { agent with localCandidates := agent.localCandidates ++ [Candidate.new .relay relayAddr baseAddr 1] }
        (Candidate.new .relay relayAddr baseAddr 1)
      revert extended
      generalize extendCheckList _ _ = agent'
      rintro (_ | _) <;> exact minted.concat relayAddr baseAddr
    | rebuilt =>
      obtain ⟨_,_,rebuilt,-⟩ := rebuild_spec
        { agent with localCandidates := agent.localCandidates ++ [Candidate.new .relay relayAddr baseAddr 1] }
      rw [rebuilt]
      exact minted.concat relayAddr baseAddr
  | addRemoteCandidate candidate =>
    obtain ⟨_,_,rebuilt,-⟩ := rebuild_spec { agent with remoteCandidates := agent.remoteCandidates ++ [candidate] }
    rw [IceAgent.perform,addRemoteCandidate,rebuilt]
    exact minted
  | checkPairs => exact minted_congr (frame_checkPairs env agent) minted
  | arrive arrivals => exact minted
  | step incoming nowUnixSecs arrivals =>
    obtain ⟨outgoing,stepped⟩ := step_driven env agent incoming nowUnixSecs arrivals
    rw [IceAgent.perform,stepped]
    exact (minted_congr (frame_polled env agent incoming) minted).drive nowUnixSecs arrivals

theorem minted_run (env : IceEnv) (config : IceConfig) (calls : List IceCall) :
    (final (IceAgent.perform env) (new config) calls).Minted :=
  final_invariant (IceAgent.perform env) (fun _ _ => True) Minted (fun _ call _ minted => minted.perform call) (new config)
    calls (fun _ none => (nomatch none)) (fun _ _ => trivial)

end Minted

section Paths

variable {env : IceEnv} {history : List Built} {agent : IceAgent} {pair : CandidatePair}

theorem Ledger.nominatedPair (ledger : Ledger env history agent) (connected : agent.state = .connected) :
    ∃ pair ∈ agent.checkList, agent.nominatedPair = some pair := by
  obtain ⟨i,nominated⟩ := Option.isSome_iff_exists.mp (ledger.connected connected)
  obtain ⟨pair,here,-⟩ := ledger.elected i nominated
  refine ⟨pair,List.mem_of_getElem? here,?_⟩
  rw [IceAgent.nominatedPair,nominated]
  exact here

theorem nominatedPair_marked {pairs : List CandidatePair} {idx : Nat} {q : CandidatePair} (here : pairs[idx]? = some q)
    {agent' : IceAgent} (list : agent'.checkList = markNominated pairs idx) (nominee : agent'.nominatedIdx = some idx) :
    agent'.nominatedPair.map path = some (path q) := by
  rw [IceAgent.nominatedPair,nominee,list]
  simp [markNominated,here,path]

/-- After a rebuild the nominated pair goes out from the first local candidate with the kind and base of the
old one. -/
theorem nominatedPair_rebuild (minted : agent.Minted) (nominated : agent.nominatedPair = some pair)
    (own : pair.localCandidate ∈ agent.localCandidates) (remote : pair.remote ∈ agent.remoteCandidates) :
    ∃ first, agent.localCandidates.find?
        (fun l => l.kind = pair.localCandidate.kind ∧ l.base = pair.localCandidate.base) = some first ∧
      agent.rebuildCheckList.nominatedPair.map path =
        some (pair.localCandidate.kind,first.addr,pair.localCandidate.base,pair.remote.kind,pair.remote.addr) := by
  have rebuilt := rebuild_rebuilt agent
  generalize agent.rebuildCheckList = agent' at rebuilt
  cases rebuilt with
  | unnominated lost =>
    obtain ⟨q,member,own',remote'⟩ := exists_freshPairs own remote
    exact absurd (show pathKey q = pathKey pair by rw [pathKey,own',remote']) (lost pair nominated q member)
  | nominated p nominated' idx found =>
    cases nominated.symm.trans nominated'
    obtain ⟨q,here,first,same⟩ := getElem?_of_findIdx? found
    have keys : q.localCandidate.base = pair.localCandidate.base ∧ q.localCandidate.kind = pair.localCandidate.kind ∧
      q.remote.addr = pair.remote.addr ∧ q.remote.kind = pair.remote.kind := by simpa using same
    refine ⟨q.localCandidate,find?_freshPairs minted first,?_⟩
    rw [nominatedPair_marked here rfl rfl,path,keys.1,keys.2.1,keys.2.2.1,keys.2.2.2]

theorem nominatedPair_extend (nominated : agent.nominatedPair = some pair)
    (member : pair ∈ agent.checkList) {newLocal : Candidate}
    (distinct : ((agent.extendedPairs newLocal).1.map pairId).Nodup) :
    (agent.extendCheckList newLocal).nominatedPair.map path = some (path pair) := by
  have extended := extend_extended agent newLocal
  generalize agent.extendCheckList newLocal = agent' at extended
  cases extended with
  | unnominated nobody => cases nominated.symm.trans nobody
  | nominated p nominated' idx found =>
    cases nominated.symm.trans nominated'
    obtain ⟨q,here,-,same⟩ := getElem?_of_findIdx? found
    have kept : q = pair := List.inj_on_of_nodup_map distinct (List.mem_of_getElem? here)
      (mem_extendedPairs.mpr (.inl member)) (of_decide_eq_true same)
    rw [nominatedPair_marked here rfl rfl,kept]

theorem nominatedPair_addRemoteCandidate (ledger : Ledger env history agent) (minted : agent.Minted)
    (connected : agent.state = .connected) (member : pair ∈ agent.checkList)
    (nominated : agent.nominatedPair = some pair) (candidate : Candidate) :
    (agent.addRemoteCandidate candidate).nominatedPair.map path = some (path pair) ↔
      agent.Distinguished pair.localCandidate := by
  obtain ⟨own,remote⟩ := ledger.known (.inr connected) pair member
  have joined : ({ agent with remoteCandidates := agent.remoteCandidates ++ [candidate] } : IceAgent).Minted := minted
  obtain ⟨first,found,after⟩ := nominatedPair_rebuild joined nominated own (List.mem_append_left _ remote)
  rw [addRemoteCandidate,after,path]
  constructor
  · intro same
    simp only [Option.some.injEq,Prod.mk.injEq] at same
    exact ⟨first,found,same.2.1⟩
  · rintro ⟨first',found',same⟩
    cases found.symm.trans found'
    rw [same]

theorem nominatedPair_addRelayCandidate (ledger : Ledger env history agent) (connected : agent.state = .connected)
    (member : pair ∈ agent.checkList) (nominated : agent.nominatedPair = some pair)
    (room : agent.nextPairId + agent.remoteCandidates.length < u64Max) (relayAddr baseAddr : SocketAddr) :
    (agent.addRelayCandidate relayAddr baseAddr).2.nominatedPair.map path = some (path pair) := by
  have joined := ledger.addLocal (Candidate.new .relay relayAddr baseAddr 1)
  rw [connected] at joined
  rw [addRelayCandidate,connected]
  dsimp only
  split
  · exact congrArg (Option.map path) nominated
  · rw [if_pos (Or.inr rfl)]
    apply nominatedPair_extend
    · exact nominated
    · exact member
    · apply joined.distinct_extended
      rw [extendedPairs,numberPairs_count] <;> rwa [List.length_map]

end Paths

/-- A connected agent has a nominated pair. Whatever remote candidate arrives, the path stays exactly
when no other address comes first among the local candidates of its kind and base; whatever relay candidate
is added, it stays. -/
theorem trickle_keeps_path_iff (env : IceEnv) (config : IceConfig) (calls : List IceCall)
    (fewer : (final (perform env) (new config) calls).nextPairId < u64Max)
    (connected : (final (perform env) (new config) calls).state = .connected) :
    ∃ pair, (final (perform env) (new config) calls).nominatedPair = some pair ∧
      (∀ candidate, ((final (perform env) (new config) calls).addRemoteCandidate candidate).nominatedPair.map path =
          some (path pair) ↔
        (final (perform env) (new config) calls).Distinguished pair.localCandidate) ∧
      ∀ relayAddr baseAddr, (final (perform env) (new config) calls).nextPairId +
          (final (perform env) (new config) calls).remoteCandidates.length < u64Max →
        ((final (perform env) (new config) calls).addRelayCandidate relayAddr baseAddr).2.nominatedPair.map path =
          some (path pair) := by
  have ledger := ledger_run env config calls fewer
  obtain ⟨pair,member,nominated⟩ := ledger.nominatedPair connected
  refine ⟨pair,nominated,?_,fun relayAddr baseAddr room => ?_⟩
  · exact nominatedPair_addRemoteCandidate ledger (minted_run env config calls) connected member nominated
  · exact nominatedPair_addRelayCandidate ledger connected member nominated room relayAddr baseAddr

end Streamhaul.IceAgent

namespace Streamhaul.Transparent

open IceAgent

def relayOne : SocketAddr := .v4 0x7f000009 50001

def relayTwo : SocketAddr := .v4 0x7f000009 50002

/-- Two relay addresses over one base; the peer answers only the check through the second. -/
def secondRelayAnswered : List IceCall :=
  [.gather,.addRelayCandidate relayOne addrA,.addRelayCandidate relayTwo addrA,
    .addRemoteCandidate (Candidate.new .host addrB addrB 1),.step none 0 [],.step none 1 [(answerTo (tids 2),addrB)]]

end Streamhaul.Transparent

namespace Streamhaul.IceAgent

open Machine Transparent

theorem secondRelayAnswered_nominated :
    (final (perform ledgerEnv) (new (aliceConfig "a" "b")) secondRelayAnswered).nominatedPair.map path =
      some (.relay,relayTwo,addrA,.host,addrB) := by
  decide +kernel

/-- The path through the second relay address stays when a third relay address is added. -/
theorem third_relay_keeps_path :
    ((final (perform ledgerEnv) (new (aliceConfig "a" "b")) secondRelayAnswered).addRelayCandidate addrC
      addrA).2.nominatedPair.map path = some (.relay,relayTwo,addrA,.host,addrB) := by
  obtain ⟨pair,nominated,-,kept⟩ := trickle_keeps_path_iff ledgerEnv (aliceConfig "a" "b") secondRelayAnswered
    (by decide +kernel) (by decide +kernel)
  have before := secondRelayAnswered_nominated
  rw [nominated] at before
  rw [kept addrC addrA (by decide +kernel)]
  exact before

/-- A late remote candidate moves the nomination to the first relay address. -/
theorem late_remote_moves_path :
    (final (perform ledgerEnv) (new (aliceConfig "a" "b")) secondRelayAnswered).state = .connected ∧
    (final (perform ledgerEnv) (new (aliceConfig "a" "b")) secondRelayAnswered).nominatedPair.map path =
      some (.relay,relayTwo,addrA,.host,addrB) ∧
    ((final (perform ledgerEnv) (new (aliceConfig "a" "b")) secondRelayAnswered).addRemoteCandidate
      (Candidate.new .host addrC addrC 1)).nominatedPair.map path = some (.relay,relayOne,addrA,.host,addrB) :=
  ⟨by decide +kernel,secondRelayAnswered_nominated,by decide +kernel⟩

end Streamhaul.IceAgent
