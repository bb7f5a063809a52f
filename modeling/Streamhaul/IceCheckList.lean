import Streamhaul.IceLedger

/-! Rebuilding and extending the check list. Pair ids come from one counter, and indices
into the list are carried over the sort by pair id or by endpoints. -/
namespace Streamhaul.IceAgent

open CandidatePair

section Numbering

variable {pairs : List CandidatePair} {next : Nat}

theorem numberPairs_spec (bound : (numberPairs next pairs).2 < u64Max) :
    (numberPairs next pairs).2 = next + pairs.length ∧
      (numberPairs next pairs).1.map pairId = List.range' next pairs.length := by
  induction pairs generalizing next with
  | nil => exact ⟨rfl,rfl⟩
  | cons pair rest ih =>
    obtain ⟨count,ids⟩ := ih (show (numberPairs (satAdd u64Max next 1) rest).2 < u64Max from bound)
    have total : (numberPairs next (pair :: rest)).2 = satAdd u64Max next 1 + rest.length := count
    have unsaturated : satAdd u64Max next 1 = next + 1 := by
      unfold satAdd at total ⊢
      omega
    constructor
    · rw [total,unsaturated,List.length_cons]
      omega
    · rw [List.length_cons,List.range'_succ,← unsaturated,← ids]
      rfl

theorem numberPairs_count (room : next + pairs.length < u64Max) :
    (numberPairs next pairs).2 = next + pairs.length := by
  induction pairs generalizing next with
  | nil => rfl
  | cons pair rest ih =>
    rw [List.length_cons] at room ⊢
    have unsaturated : satAdd u64Max next 1 = next + 1 := satAdd_of_le (by omega)
    have count : (numberPairs next (pair :: rest)).2 = (numberPairs (next + 1) rest).2 := by
      rw [numberPairs,unsaturated]
    rw [count,ih (by omega)]
    omega

theorem numberPairs_endpoints (next : Nat) (pairs : List CandidatePair) :
    (numberPairs next pairs).1.map (fun p => (p.localCandidate,p.remote)) =
      pairs.map (fun p => (p.localCandidate,p.remote)) := by
  induction pairs generalizing next with
  | nil => rfl
  | cons pair rest ih =>
    rw [List.map_cons,← ih (satAdd u64Max next 1)]
    rfl

theorem mem_numberPairs {p : CandidatePair} (member : p ∈ (numberPairs next pairs).1) :
    ∃ q ∈ pairs, p = { q with pairId := p.pairId, state := .waiting } := by
  induction pairs generalizing next with
  | nil => cases member
  | cons pair rest ih =>
    rcases List.mem_cons.mp member with rfl | later
    · exact ⟨pair,List.mem_cons_self,rfl⟩
    · obtain ⟨q,there,same⟩ := ih later
      exact ⟨q,List.mem_cons_of_mem _ there,same⟩

theorem exists_numberPairs (next : Nat) {q : CandidatePair} (member : q ∈ pairs) :
    ∃ p ∈ (numberPairs next pairs).1, p.localCandidate = q.localCandidate ∧ p.remote = q.remote := by
  have there : (q.localCandidate,q.remote) ∈
      (numberPairs next pairs).1.map (fun p => (p.localCandidate,p.remote)) := by
    rw [numberPairs_endpoints]
    exact List.mem_map.mpr ⟨q,member,rfl⟩
  obtain ⟨p,member,same⟩ := List.mem_map.mp there
  simp only [Prod.mk.injEq] at same
  exact ⟨p,member,same⟩

theorem numberPairs_issued (bound : (numberPairs next pairs).2 < u64Max)
    {p : CandidatePair} (member : p ∈ (numberPairs next pairs).1) :
    next ≤ p.pairId ∧ p.pairId < (numberPairs next pairs).2 := by
  obtain ⟨count,ids⟩ := numberPairs_spec bound
  have listed : p.pairId ∈ (numberPairs next pairs).1.map pairId := List.mem_map_of_mem member
  rw [ids,List.mem_range'_1] at listed
  rw [count]
  exact listed

theorem sortPairs_perm (pairs : List CandidatePair) : (sortPairs pairs).Perm pairs := List.perm_insertionSort _ _

end Numbering

section Rebuild

variable {env : IceEnv} {history : List Built} {agent : IceAgent} {newLocal : Candidate} {p : CandidatePair}

def crossPairs (agent : IceAgent) : List CandidatePair :=
  agent.localCandidates.flatMap (fun l => agent.remoteCandidates.map (fun r => CandidatePair.new 0 l r agent.isControlling))

def freshPairs (agent : IceAgent) : List CandidatePair := sortPairs (numberPairs agent.nextPairId agent.crossPairs).1

theorem mem_crossPairs (member : p ∈ agent.crossPairs) : ∃ l ∈ agent.localCandidates,
    ∃ r ∈ agent.remoteCandidates, p = CandidatePair.new 0 l r agent.isControlling := by
  obtain ⟨l,own,inner⟩ := List.mem_flatMap.mp member
  obtain ⟨r,remote,rfl⟩ := List.mem_map.mp inner
  exact ⟨l,own,r,remote,rfl⟩

theorem mem_freshPairs (member : p ∈ agent.freshPairs) : ∃ l ∈ agent.localCandidates,
    ∃ r ∈ agent.remoteCandidates,
      p = { CandidatePair.new 0 l r agent.isControlling with pairId := p.pairId, state := .waiting } := by
  obtain ⟨q,crossed,numbered⟩ := mem_numberPairs ((sortPairs_perm _).mem_iff.mp member)
  obtain ⟨l,own,r,remote,rfl⟩ := mem_crossPairs crossed
  exact ⟨l,own,r,remote,numbered⟩

theorem exists_freshPairs {l r : Candidate} (own : l ∈ agent.localCandidates) (remote : r ∈ agent.remoteCandidates) :
    ∃ p ∈ agent.freshPairs, p.localCandidate = l ∧ p.remote = r := by
  have crossed : CandidatePair.new 0 l r agent.isControlling ∈ agent.crossPairs :=
    List.mem_flatMap.mpr ⟨l,own,List.mem_map.mpr ⟨r,remote,rfl⟩⟩
  obtain ⟨p,member,same⟩ := exists_numberPairs agent.nextPairId crossed
  exact ⟨p,(sortPairs_perm _).mem_iff.mpr member,same⟩

abbrev pathKey (p : CandidatePair) : SocketAddr × CandidateKind × SocketAddr × CandidateKind :=
  (p.localCandidate.base,p.localCandidate.kind,p.remote.addr,p.remote.kind)

abbrev rebuiltWith (agent : IceAgent) (pairs : List CandidatePair) (nominatedIdx : Option Nat) : IceAgent :=
  { agent with
    checkList := pairs, nominatedIdx := nominatedIdx, inFlight := []
    nextPairId := (numberPairs agent.nextPairId agent.crossPairs).2 }

/-- A rebuilt check list holds fresh pairs, and nominates again the first pair with the path of the
nominated one, when there is one. -/
inductive Rebuilt (agent : IceAgent) : IceAgent → Prop
  | unnominated (lost : ∀ p, agent.nominatedPair = some p → ∀ q ∈ agent.freshPairs, pathKey q ≠ pathKey p) :
      Rebuilt agent (agent.rebuiltWith agent.freshPairs none)
  | nominated (p : CandidatePair) (nominated : agent.nominatedPair = some p) (idx : Nat)
      (found : agent.freshPairs.findIdx? (fun q => pathKey q = pathKey p) = some idx) :
      Rebuilt agent (agent.rebuiltWith (markNominated agent.freshPairs idx) (some idx))

theorem rebuild_rebuilt (agent : IceAgent) : Rebuilt agent agent.rebuildCheckList := by
  unfold rebuildCheckList
  cases nominated : agent.nominatedPair with
  | none => exact .unnominated (fun p none => (nomatch nominated.symm.trans none))
  | some p =>
    dsimp only [Option.map_some]
    cases found : agent.freshPairs.findIdx? (fun q => pathKey q = pathKey p) with
    | none =>
      have lost : ∀ p', agent.nominatedPair = some p' → ∀ q ∈ agent.freshPairs, pathKey q ≠ pathKey p' := by
        intro p' same q member
        cases nominated.symm.trans same
        exact of_decide_eq_false (List.findIdx?_eq_none_iff.mp found q member)
      unfold freshPairs crossPairs at found
      rw [found]
      exact .unnominated lost
    | some idx =>
      have rebuilt := Rebuilt.nominated p nominated idx found
      unfold freshPairs crossPairs at found
      rw [found]
      exact rebuilt

theorem rebuild_spec (agent : IceAgent) : ∃ pairs nominatedIdx,
    agent.rebuildCheckList = agent.rebuiltWith pairs nominatedIdx ∧
    pairs.map key = agent.freshPairs.map key ∧ Elected pairs nominatedIdx ∧
    ∀ p, agent.nominatedPair = some p → (∃ q ∈ agent.freshPairs, q.localCandidate = p.localCandidate ∧ q.remote = p.remote) →
      nominatedIdx.isSome = true := by
  have rebuilt := rebuild_rebuilt agent
  generalize agent.rebuildCheckList = agent' at rebuilt
  cases rebuilt with
  | unnominated lost =>
    refine ⟨_,_,rfl,rfl,fun i none => (nomatch none),?_⟩
    rintro p nominated ⟨q,member,own,remote⟩
    exact absurd (show pathKey q = pathKey p by rw [pathKey,own,remote]) (lost p nominated q member)
  | nominated p nominated idx found =>
    obtain ⟨q,here,_⟩ := getElem?_of_findIdx? found
    exact ⟨_,_,rfl,key_markNominated _ idx,elected_markNominated here,fun _ _ _ => rfl⟩

theorem Ledger.rebuild (ledger : Ledger env history agent) (bound : agent.rebuildCheckList.nextPairId < u64Max) :
    Ledger env history agent.rebuildCheckList ∧ agent.rebuildCheckList.Known := by
  obtain ⟨pairs,nominatedIdx,rebuilt,keys,elected,again⟩ := rebuild_spec agent
  rw [rebuilt] at bound ⊢
  have known : ∀ p ∈ pairs, p.localCandidate ∈ agent.localCandidates ∧ p.remote ∈ agent.remoteCandidates := by
    intro p member
    obtain ⟨q,fresh,same⟩ := mem_of_keys keys member
    simp only [key,Prod.mk.injEq] at same
    rw [← same.2.1,← same.2.2]
    obtain ⟨l,own,r,remote,made⟩ := mem_freshPairs fresh
    rw [made]
    exact ⟨own,remote⟩
  refine ⟨⟨ledger.drawn,?_,?_,?_,elected,fun _ => known,?_⟩,known⟩
  · intro t member
    cases member
  · have ids := (numberPairs_spec bound).2
    have sorted := (sortPairs_perm (numberPairs agent.nextPairId agent.crossPairs).1).map pairId
    rw [pairIds_of_keys keys]
    apply sorted.nodup_iff.mpr
    rw [ids]
    exact List.nodup_range'
  · intro p member
    obtain ⟨q,fresh,same⟩ := mem_of_keys keys member
    have id : q.pairId = p.pairId := congrArg Prod.fst same
    rw [← id]
    exact (numberPairs_issued bound ((sortPairs_perm _).mem_iff.mp fresh)).2
  · intro active
    obtain ⟨i,nominated⟩ := Option.isSome_iff_exists.mp (ledger.connected active)
    obtain ⟨p,here,_⟩ := ledger.elected i nominated
    obtain ⟨own,remote⟩ := ledger.known (.inr active) p (List.mem_of_getElem? here)
    apply again p
    · rw [nominatedPair,nominated]
      exact here
    · exact exists_freshPairs own remote

def extendedPairs (agent : IceAgent) (newLocal : Candidate) : List CandidatePair × Nat :=
  let added := numberPairs agent.nextPairId
    (agent.remoteCandidates.map (fun r => CandidatePair.new 0 newLocal r agent.isControlling))
  (sortPairs (agent.checkList ++ added.1),added.2)

theorem mem_extendedPairs :
    p ∈ (agent.extendedPairs newLocal).1 ↔ p ∈ agent.checkList ∨ p ∈ (numberPairs agent.nextPairId
      (agent.remoteCandidates.map (fun r => CandidatePair.new 0 newLocal r agent.isControlling))).1 := by
  rw [extendedPairs,(sortPairs_perm _).mem_iff,List.mem_append]

/-- The transactions in flight, found again by the ids of their pairs. -/
def carriedInFlight (agent : IceAgent) (newLocal : Candidate) : List (TransactionId × Nat) :=
  (agent.inFlight.filterMap (fun t => (agent.checkList[t.2]?).map (fun p => (t.1,p.pairId)))).filterMap
    (fun t => ((agent.extendedPairs newLocal).1.findIdx? (fun p => p.pairId = t.2)).map (fun idx => (t.1,idx)))

abbrev extendedWith (agent : IceAgent) (newLocal : Candidate) (pairs : List CandidatePair) (nominatedIdx : Option Nat) :
    IceAgent :=
  { agent with
    checkList := pairs, nominatedIdx := nominatedIdx, inFlight := agent.carriedInFlight newLocal
    nextPairId := (agent.extendedPairs newLocal).2 }

/-- An extended check list nominates the first pair with the id of the nominated one. -/
inductive Extended (agent : IceAgent) (newLocal : Candidate) : IceAgent → Prop
  | unnominated (nobody : agent.nominatedPair = none) :
      Extended agent newLocal (agent.extendedWith newLocal (agent.extendedPairs newLocal).1 agent.nominatedIdx)
  | nominated (p : CandidatePair) (nominated : agent.nominatedPair = some p) (idx : Nat)
      (found : (agent.extendedPairs newLocal).1.findIdx? (fun q => q.pairId = p.pairId) = some idx) :
      Extended agent newLocal
        (agent.extendedWith newLocal (markNominated (agent.extendedPairs newLocal).1 idx) (some idx))

theorem extend_extended (agent : IceAgent) (newLocal : Candidate) :
    Extended agent newLocal (agent.extendCheckList newLocal) := by
  unfold extendCheckList
  cases nominated : agent.nominatedPair with
  | none => exact .unnominated nominated
  | some p =>
    dsimp only [Option.map_some]
    cases found : (agent.extendedPairs newLocal).1.findIdx? (fun q => q.pairId = p.pairId) with
    | none =>
      obtain ⟨i,_,here⟩ := Option.bind_eq_some_iff.mp nominated
      have member : p ∈ (agent.extendedPairs newLocal).1 := mem_extendedPairs.mpr (.inl (List.mem_of_getElem? here))
      exact absurd rfl (of_decide_eq_false (List.findIdx?_eq_none_iff.mp found p member))
    | some idx =>
      have extended := Extended.nominated p nominated idx found
      unfold extendedPairs at found
      rw [found]
      exact extended

theorem mem_carriedInFlight {t : TransactionId × Nat} (member : t ∈ agent.carriedInFlight newLocal) :
    ∃ old ∈ agent.inFlight, ∃ pair moved, old.1 = t.1 ∧ agent.checkList[old.2]? = some pair ∧
      (agent.extendedPairs newLocal).1[t.2]? = some moved ∧ moved.pairId = pair.pairId := by
  obtain ⟨named,first,located⟩ := List.mem_filterMap.mp member
  obtain ⟨old,flying,identified⟩ := List.mem_filterMap.mp first
  obtain ⟨pair,here,rfl⟩ := Option.map_eq_some_iff.mp identified
  obtain ⟨idx,found,rfl⟩ := Option.map_eq_some_iff.mp located
  obtain ⟨moved,there,_,same⟩ := getElem?_of_findIdx? found
  exact ⟨old,flying,pair,moved,rfl,here,there,of_decide_eq_true same⟩

/-- Transactions and nomination follow their pairs over the sort. -/
theorem extend_spec (agent : IceAgent) (newLocal : Candidate) (elected : Elected agent.checkList agent.nominatedIdx) :
    ∃ pairs nominatedIdx, agent.extendCheckList newLocal = agent.extendedWith newLocal pairs nominatedIdx ∧
    pairs.map key = (agent.extendedPairs newLocal).1.map key ∧ Elected pairs nominatedIdx ∧
    (agent.nominatedIdx.isSome = true → nominatedIdx.isSome = true) := by
  have extended := extend_extended agent newLocal
  generalize agent.extendCheckList newLocal = agent' at extended
  cases extended with
  | unnominated nobody =>
    have none : agent.nominatedIdx = none := by
      cases idx : agent.nominatedIdx with
      | none => rfl
      | some i =>
        obtain ⟨pair,here,_⟩ := elected i idx
        rw [nominatedPair,idx] at nobody
        cases here.symm.trans nobody
    refine ⟨_,_,rfl,rfl,?_,id⟩
    rw [none]
    exact fun i some => (nomatch some)
  | nominated p nominated idx found =>
    obtain ⟨q,here,_⟩ := getElem?_of_findIdx? found
    exact ⟨_,_,rfl,key_markNominated _ idx,elected_markNominated here,fun _ => rfl⟩

theorem Ledger.distinct_extended (ledger : Ledger env history agent)
    (bound : (agent.extendedPairs newLocal).2 < u64Max) : ((agent.extendedPairs newLocal).1.map pairId).Nodup := by
  apply ((sortPairs_perm _).map pairId).nodup_iff.mpr
  rw [List.map_append,List.nodup_append]
  refine ⟨ledger.distinct,?_,?_⟩
  · rw [(numberPairs_spec bound).2]
    exact List.nodup_range'
  · intro a first b second equal
    obtain ⟨p,earlier,rfl⟩ := List.mem_map.mp first
    obtain ⟨q,later,rfl⟩ := List.mem_map.mp second
    have before := ledger.issued p earlier
    have after := (numberPairs_issued bound later).1
    omega

theorem nextPairId_extendCheckList (agent : IceAgent) (newLocal : Candidate) :
    (agent.extendCheckList newLocal).nextPairId = (agent.extendedPairs newLocal).2 := by
  have extended := extend_extended agent newLocal
  generalize agent.extendCheckList newLocal = agent' at extended
  cases extended <;> rfl

theorem Ledger.extend (ledger : Ledger env history agent)
    (own : newLocal ∈ agent.localCandidates) (bound : (agent.extendCheckList newLocal).nextPairId < u64Max) :
    Ledger env history (agent.extendCheckList newLocal) := by
  obtain ⟨pairs,nominatedIdx,extended,keys,elected,stays⟩ := extend_spec agent newLocal ledger.elected
  rw [extended] at bound ⊢
  refine ⟨ledger.drawn,?_,?_,?_,elected,?_,fun active => stays (ledger.connected active)⟩
  · intro t member
    obtain ⟨old,flying,pair,moved,same,here,there,id⟩ := mem_carriedInFlight member
    obtain ⟨pair',here',built⟩ := ledger.inFlight old flying
    cases here.symm.trans here'
    obtain ⟨last,there',id'⟩ := getElem?_of_keys keys there
    have id' : last.pairId = moved.pairId := congrArg Prod.fst id'
    exact ⟨last,there',by rw [id',id,← same]; exact built⟩
  · rw [pairIds_of_keys keys]
    exact ledger.distinct_extended bound
  · intro p member
    obtain ⟨q,there,same⟩ := mem_of_keys keys member
    have id : q.pairId = p.pairId := congrArg Prod.fst same
    rw [← id]
    rcases mem_extendedPairs.mp there with earlier | later
    · have count := (numberPairs_spec bound).1
      have before := ledger.issued q earlier
      exact before.trans_le (Nat.le.intro count.symm)
    · exact (numberPairs_issued bound later).2
  · intro active p member
    obtain ⟨q,there,same⟩ := mem_of_keys keys member
    simp only [key,Prod.mk.injEq] at same
    rw [← same.2.1,← same.2.2]
    rcases mem_extendedPairs.mp there with earlier | later
    · exact ledger.known active q earlier
    · obtain ⟨r,crossed,numbered⟩ := mem_numberPairs later
      obtain ⟨remote,listed,rfl⟩ := List.mem_map.mp crossed
      rw [numbered]
      exact ⟨own,listed⟩

end Rebuild

end Streamhaul.IceAgent
