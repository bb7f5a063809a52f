import Streamhaul.IceAgent
import Streamhaul.Machine

/-! The bookkeeping of the ICE agent: each request that is built is logged with the pair it
checks, and the transactions in flight are held against that log while datagrams are
processed and checks go out. -/
namespace Streamhaul

/-- A request that was built: its transaction id and the id of the pair it checks. -/
abbrev Built := TransactionId × Nat

namespace CandidatePair

/-- What no change of state or nomination touches. -/
def key (p : CandidatePair) : Nat × Candidate × Candidate := (p.pairId,p.localCandidate,p.remote)

def Elected (pairs : List CandidatePair) (nominatedIdx : Option Nat) : Prop :=
  ∀ i, nominatedIdx = some i → ∃ pair, pairs[i]? = some pair ∧ pair.nominated = true ∧ pair.state = .succeeded

end CandidatePair

namespace IceAgent

open CandidatePair Machine

section Log

variable (env : IceEnv)

def checkPairBuilt (agent : IceAgent) (idx : Nat) : List Built :=
  match agent.checkList[idx]? with
  | none => []
  | some pair => if pair.state = .waiting then [(env.tid agent.drawn,pair.pairId)] else []

def checksBuilt : IceAgent → List Nat → List Built
  | _, [] => []
  | agent, idx :: rest => agent.checkPairBuilt env idx ++ checksBuilt (agent.checkPair env idx) rest

def checkPairsBuilt (agent : IceAgent) : List Built :=
  if agent.checkList = [] then [] else checksBuilt env agent (List.range agent.checkList.length)

def triggerBuilt (agent : IceAgent) (source : SocketAddr) : List Built :=
  match agent.checkList.find? (unchecked source) with
  | none => []
  | some pair => [(env.tid agent.drawn,pair.pairId)]

def requestBuilt (agent : IceAgent) (raw : Bytes) (msg : StunMessage) (source : SocketAddr) : List Built :=
  match StunMessage.verifyIntegrity env.suite raw agent.config.localPwd.asBytes with
  | .error _ => []
  | .ok () =>
    if usernameValid msg agent.config.localUfrag then
      ((agent.respond env msg source).followNomination msg source).triggerBuilt env source
    else []

def responseBuilt (agent : IceAgent) (raw : Bytes) (msg : StunMessage) (source : SocketAddr) : List Built :=
  match StunMessage.verifyIntegrity env.suite raw agent.config.remotePwd.asBytes with
  | .error _ => []
  | .ok () =>
    match (agent.inFlight.find? (fun t => t.1 = msg.transactionId)).bind (fun t => agent.checkList[t.2]?) with
    | none => []
    | some pair =>
      if source = pair.remote.addr ∧ agent.isControlling ∧ agent.nominatedIdx = none then
        [(env.tid agent.drawn,pair.pairId)]
      else []

def incomingBuilt (agent : IceAgent) (data : Bytes) (source : SocketAddr) : List Built :=
  match StunMessage.decode env.suite data with
  | .error _ => []
  | .ok msg =>
    match msg.class' with
    | .request => agent.requestBuilt env data msg source
    | .successResponse => agent.responseBuilt env data msg source
    | .errorResponse | .indication => []

def drainBuilt : Nat → IceAgent → List Built
  | 0, _ => []
  | n + 1, agent =>
    match agent.inbox with
    | [] => []
    | (data,source) :: rest =>
      incomingBuilt env { agent with inbox := rest } (data.take recvBufferLen) source ++
        drainBuilt n ({ agent with inbox := rest }.handleIncoming env (data.take recvBufferLen) source)

def driveBuilt (agent : IceAgent) (arrivals : List Datagram) : List Built :=
  if agent.state = .checking then
    agent.checkPairsBuilt env ++ drainBuilt env 64 ((agent.checkPairs env).2.receive arrivals)
  else []

def takenBuilt (agent : IceAgent) : Option Datagram → List Built
  | none => []
  | some (data,source) => agent.incomingBuilt env data source

def taken (agent : IceAgent) : Option Datagram → IceAgent
  | none => agent
  | some (data,source) => agent.handleIncoming env data source

def polled (agent : IceAgent) (incoming : Option Datagram) : IceAgent :=
  { (agent.taken env incoming).drainTransportInbox env with outgoing := [] }

def stepBuilt (agent : IceAgent) (incoming : Option Datagram) (arrivals : List Datagram) : List Built :=
  agent.takenBuilt env incoming ++ (drainBuilt env 64 (agent.taken env incoming) ++
    (agent.polled env incoming).driveBuilt env arrivals)

end Log

/-- Every pair of the check list is made of candidates the agent has. -/
def Known (agent : IceAgent) : Prop :=
  ∀ p ∈ agent.checkList, p.localCandidate ∈ agent.localCandidates ∧ p.remote ∈ agent.remoteCandidates

/-- The requests built so far against the agent. -/
structure Ledger (env : IceEnv) (history : List Built) (agent : IceAgent) : Prop where
  drawn : history.map Prod.fst = (List.range agent.drawn).map env.tid
  inFlight : ∀ t ∈ agent.inFlight, ∃ pair, agent.checkList[t.2]? = some pair ∧ (t.1,pair.pairId) ∈ history
  distinct : (agent.checkList.map pairId).Nodup
  issued : ∀ p ∈ agent.checkList, p.pairId < agent.nextPairId
  elected : Elected agent.checkList agent.nominatedIdx
  known : agent.state = .checking ∨ agent.state = .connected → agent.Known
  connected : agent.state = .connected → agent.nominatedIdx.isSome = true

section Lists

variable {pairs pairs' : List CandidatePair} (keys : pairs'.map key = pairs.map key)

include keys

theorem getElem?_of_keys {i : Nat} {pair : CandidatePair} (here : pairs[i]? = some pair) :
    ∃ pair', pairs'[i]? = some pair' ∧ pair'.key = pair.key := by
  have same := congrArg (fun l : List (Nat × Candidate × Candidate) => l[i]?) keys
  simp only [List.getElem?_map,here,Option.map_some] at same
  exact Option.map_eq_some_iff.mp same

theorem mem_of_keys {pair' : CandidatePair} (member : pair' ∈ pairs') : ∃ pair ∈ pairs, pair.key = pair'.key := by
  have there : pair'.key ∈ pairs.map key := keys ▸ List.mem_map_of_mem member
  exact List.mem_map.mp there

theorem pairIds_of_keys : pairs'.map pairId = pairs.map pairId := by
  have same := congrArg (List.map Prod.fst) keys
  simpa [key,Function.comp_def] using same

end Lists

theorem map_modify_of_same {α β : Type} {g : α → β} {f : α → α} (same : ∀ x, g (f x) = g x) (l : List α) (i : Nat) :
    (l.modify i f).map g = l.map g := by
  apply List.ext_getElem?
  intro j
  simp only [List.getElem?_map,List.getElem?_modify]
  cases l[j]? with
  | none => rfl
  | some x =>
    simp only [Option.map_some,Option.map_eq_map]
    split
    · exact congrArg some (same x)
    · rfl

theorem map_set_of_same {α β : Type} {g : α → β} {l : List α} {i : Nat} {x y : α} (here : l[i]? = some y)
    (same : g x = g y) : (l.set i x).map g = l.map g := by
  rw [List.map_set,same]
  apply List.ext_getElem?
  intro j
  by_cases own : i = j
  · subst own
    rw [List.getElem?_map,here,List.getElem?_set_self']
    simp [here]
  · rw [List.getElem?_set_ne own]

theorem getElem?_of_findIdx? {α : Type} {p : α → Bool} {l : List α} {i : Nat} (found : l.findIdx? p = some i) :
    ∃ x, l[i]? = some x ∧ l.find? p = some x ∧ p x = true := by
  obtain ⟨bound,holds,before⟩ := List.findIdx?_eq_some_iff_getElem.mp found
  refine ⟨l[i],List.getElem?_eq_getElem bound,?_,holds⟩
  apply List.find?_eq_some_iff_getElem.mpr
  exact ⟨holds,i,bound,rfl,fun j less => by simpa using before j less⟩

theorem find?_of_findIdx?_none {α : Type} {p : α → Bool} {l : List α} (missing : l.findIdx? p = none) :
    l.find? p = none := by
  rw [List.find?_eq_none]
  intro x member
  rw [List.findIdx?_eq_none_iff.mp missing x member]
  exact Bool.false_ne_true

section Elected

variable {pairs : List CandidatePair} {idx : Nat} {pair : CandidatePair} (here : pairs[idx]? = some pair)

include here

theorem getElem?_set_here (x : CandidatePair) : (pairs.set idx x)[idx]? = some x := by
  rw [List.getElem?_set_self']
  simp [here]

theorem elected_set_waiting {nominatedIdx : Option Nat} (elected : Elected pairs nominatedIdx)
    (waiting : pair.state = .waiting) (x : CandidatePair) : Elected (pairs.set idx x) nominatedIdx := by
  intro i nominated
  obtain ⟨other,there,marked,done⟩ := elected i nominated
  have apart : idx ≠ i := by
    rintro rfl
    cases here.symm.trans there
    rw [waiting] at done
    cases done
  rw [List.getElem?_set_ne apart]
  exact ⟨other,there,marked,done⟩

theorem elected_set_succeeded {nominatedIdx : Option Nat} (elected : Elected pairs nominatedIdx) :
    Elected (pairs.set idx { pair with state := .succeeded }) nominatedIdx := by
  intro i nominated
  obtain ⟨other,there,marked,done⟩ := elected i nominated
  by_cases own : idx = i
  · subst own
    cases here.symm.trans there
    exact ⟨_,getElem?_set_here here _,marked,rfl⟩
  · rw [List.getElem?_set_ne own]
    exact ⟨other,there,marked,done⟩

theorem elected_set {x : CandidatePair} (marked : x.nominated = true) (done : x.state = .succeeded) :
    Elected (pairs.set idx x) (some idx) := by
  intro i nominated
  cases nominated
  exact ⟨x,getElem?_set_here here x,marked,done⟩

theorem elected_modify {f : CandidatePair → CandidatePair} (marked : (f pair).nominated = true)
    (done : (f pair).state = .succeeded) : Elected (pairs.modify idx f) (some idx) := by
  intro i nominated
  cases nominated
  rw [List.getElem?_modify_eq,here]
  exact ⟨f pair,rfl,marked,done⟩

theorem elected_markNominated : Elected (markNominated pairs idx) (some idx) := elected_modify here rfl rfl

end Elected

theorem key_markNominated (pairs : List CandidatePair) (idx : Nat) :
    (markNominated pairs idx).map key = pairs.map key := by
  apply map_modify_of_same
  intro p
  rfl

section Ledger

variable {env : IceEnv} {history : List Built} {agent : IceAgent} (ledger : Ledger env history agent)
  {pair : CandidatePair} {idx : Nat}

include ledger

theorem Ledger.relabel {pairs : List CandidatePair} {nominatedIdx : Option Nat}
    (keys : pairs.map key = agent.checkList.map key) (elected : Elected pairs nominatedIdx)
    (stays : agent.nominatedIdx.isSome = true → nominatedIdx.isSome = true) :
    Ledger env history { agent with checkList := pairs, nominatedIdx := nominatedIdx } where
  drawn := ledger.drawn
  inFlight t member := by
    obtain ⟨pair,here,built⟩ := ledger.inFlight t member
    obtain ⟨pair',here',same⟩ := getElem?_of_keys keys here
    have id : pair'.pairId = pair.pairId := congrArg Prod.fst same
    exact ⟨pair',here',id ▸ built⟩
  distinct := (pairIds_of_keys keys).symm ▸ ledger.distinct
  issued p member := by
    obtain ⟨old,there,same⟩ := mem_of_keys keys member
    have id : old.pairId = p.pairId := congrArg Prod.fst same
    exact id ▸ ledger.issued old there
  elected := elected
  known active p member := by
    obtain ⟨old,there,same⟩ := mem_of_keys keys member
    obtain ⟨own,remote⟩ := ledger.known active old there
    simp only [key,Prod.mk.injEq] at same
    exact ⟨same.2.1 ▸ own,same.2.2 ▸ remote⟩
  connected active := stays (ledger.connected active)

theorem Ledger.draw (here : agent.checkList[idx]? = some pair) :
    Ledger env (history ++ [(env.tid agent.drawn,pair.pairId)])
      { agent with drawn := agent.drawn + 1, inFlight := agent.inFlight ++ [(env.tid agent.drawn,idx)] } where
  drawn := by
    rw [List.map_append,ledger.drawn,List.range_succ,List.map_append]
    rfl
  inFlight := by
    apply forall_mem_concat
    · intro t member
      obtain ⟨pair,here,built⟩ := ledger.inFlight t member
      exact ⟨pair,here,List.mem_append_left _ built⟩
    · exact ⟨pair,here,List.mem_append_right _ (List.mem_singleton.mpr rfl)⟩
  distinct := ledger.distinct
  issued := ledger.issued
  elected := ledger.elected
  known := ledger.known
  connected := ledger.connected

theorem Ledger.forget (pos : Nat) : Ledger env history { agent with inFlight := agent.inFlight.eraseIdx pos } :=
  { ledger with inFlight := fun t member => ledger.inFlight t ((List.eraseIdx_sublist _ _).subset member) }

theorem Ledger.route (viaRelay : Bool) (datagram : Datagram) : Ledger env history (agent.route viaRelay datagram) := by
  unfold IceAgent.route
  split
  · exact { ledger with }
  · exact { ledger with }

theorem Ledger.sendCheck {stored pair : CandidatePair} (here : agent.checkList[idx]? = some stored)
    (same : stored.pairId = pair.pairId) (nominate : Bool) (dest : SocketAddr) :
    Ledger env (history ++ [(env.tid agent.drawn,pair.pairId)]) (agent.sendCheck env idx pair nominate dest) := by
  have drawn := ledger.draw here
  rw [same] at drawn
  exact drawn.route _ _

theorem Ledger.checkPair (idx : Nat) :
    Ledger env (history ++ agent.checkPairBuilt env idx) (agent.checkPair env idx) := by
  unfold checkPairBuilt IceAgent.checkPair
  cases here : agent.checkList[idx]? with
  | none =>
    rw [List.append_nil]
    exact ledger
  | some pair =>
    dsimp only
    split
    · next waiting =>
      have keys : (agent.checkList.set idx { pair with state := .inProgress }).map key = agent.checkList.map key :=
        map_set_of_same here rfl
      have relabelled := ledger.relabel keys (elected_set_waiting here ledger.elected waiting _) id
      exact relabelled.sendCheck (getElem?_set_here here _) rfl false pair.remote.addr
    · rw [List.append_nil]
      exact ledger

omit ledger in
theorem Ledger.checks (indices : List Nat) {history : List Built} {agent : IceAgent} (ledger : Ledger env history agent) :
    Ledger env (history ++ checksBuilt env agent indices) (indices.foldl (IceAgent.checkPair env) agent) := by
  induction indices generalizing history agent with
  | nil =>
    rw [checksBuilt,List.append_nil]
    exact ledger
  | cons idx rest ih =>
    rw [checksBuilt,← List.append_assoc]
    exact ih (ledger.checkPair idx)

theorem Ledger.checkPairs : Ledger env (history ++ agent.checkPairsBuilt env) (agent.checkPairs env).2 := by
  unfold checkPairsBuilt IceAgent.checkPairs
  split
  · rw [List.append_nil]
    exact ledger
  · exact Ledger.checks _ ledger

theorem Ledger.followNomination (msg : StunMessage) (source : SocketAddr) :
    Ledger env history (agent.followNomination msg source) := by
  unfold IceAgent.followNomination
  dsimp only
  split
  · split
    · exact ledger
    · next idx found =>
      obtain ⟨pair,here,_⟩ := getElem?_of_findIdx? found
      exact ledger.relabel (key_markNominated _ idx) (elected_markNominated here) (fun _ => rfl)
  · exact ledger

theorem Ledger.succeedUnchecked (source : SocketAddr) : Ledger env history (agent.succeedUnchecked source) := by
  apply ledger.relabel
  · rw [List.map_map]
    apply List.map_congr_left
    intro p _
    dsimp only [Function.comp]
    split <;> rfl
  · intro i nominated
    obtain ⟨pair,there,marked,done⟩ := ledger.elected i nominated
    refine ⟨pair,?_,marked,done⟩
    rw [List.getElem?_map,there]
    simp [unchecked,done]
  · exact id

theorem Ledger.sendTriggered (here : agent.checkList[idx]? = some pair)
    (done : pair.state = .succeeded) (source : SocketAddr) :
    Ledger env (history ++ [(env.tid agent.drawn,pair.pairId)]) (agent.sendTriggered env idx source) := by
  unfold IceAgent.sendTriggered
  rw [here]
  dsimp only
  have checked := ledger.sendCheck here rfl (agent.isControlling && agent.nominatedIdx.isNone) source
  have stored : (agent.sendCheck env idx pair (agent.isControlling && agent.nominatedIdx.isNone) source).checkList[idx]? =
      some pair := by
    rw [checkList_sendCheck]
    exact here
  split
  · apply checked.relabel
    · apply map_modify_of_same
      intro p
      rfl
    · exact elected_modify stored rfl done
    · exact fun _ => rfl
  · exact checked

theorem Ledger.triggerCheck (source : SocketAddr) :
    Ledger env (history ++ agent.triggerBuilt env source) (agent.triggerCheck env source) := by
  unfold triggerBuilt IceAgent.triggerCheck
  cases found : agent.checkList.findIdx? (unchecked source) with
  | none =>
    rw [find?_of_findIdx?_none found]
    simp only [List.append_nil]
    exact ledger.succeedUnchecked source
  | some idx =>
    obtain ⟨pair,here,first,open'⟩ := getElem?_of_findIdx? found
    rw [first]
    have now : (agent.succeedUnchecked source).checkList[idx]? = some { pair with state := .succeeded } := by
      rw [IceAgent.succeedUnchecked,List.getElem?_map,here,Option.map_some,if_pos open']
    exact (ledger.succeedUnchecked source).sendTriggered now rfl source

theorem Ledger.handleBindingRequest (raw : Bytes) (msg : StunMessage) (source : SocketAddr) :
    Ledger env (history ++ agent.requestBuilt env raw msg source) (agent.handleBindingRequest env raw msg source) := by
  unfold requestBuilt IceAgent.handleBindingRequest
  cases StunMessage.verifyIntegrity env.suite raw agent.config.localPwd.asBytes with
  | error e => exact (List.append_nil history).symm ▸ ledger
  | ok _ =>
    dsimp only
    split
    · have answered : Ledger env history (agent.respond env msg source) := ledger.route _ _
      exact (answered.followNomination msg source).triggerCheck source
    · exact (List.append_nil history).symm ▸ ledger

theorem Ledger.confirmPair {pairIdx : Nat} (here : agent.checkList[pairIdx]? = some pair) (source : SocketAddr) :
    Ledger env (history ++ if agent.isControlling ∧ agent.nominatedIdx = none then [(env.tid agent.drawn,pair.pairId)]
      else []) (agent.confirmPair env pairIdx pair source) := by
  unfold IceAgent.confirmPair
  by_cases nominates : agent.isControlling ∧ agent.nominatedIdx = none
  · simp only [nominates,Option.isNone_none,Bool.and_self,if_true,and_self]
    have keys : (agent.checkList.set pairIdx { pair with state := .succeeded, nominated := true }).map key =
        agent.checkList.map key := map_set_of_same here rfl
    have relabelled := ledger.relabel keys (elected_set here rfl rfl) (fun _ => rfl)
    exact relabelled.sendCheck (getElem?_set_here here _) rfl true source
  · rw [if_neg nominates,List.append_nil,if_neg]
    · have keys : (agent.checkList.set pairIdx { pair with state := .succeeded }).map key = agent.checkList.map key :=
        map_set_of_same here rfl
      exact ledger.relabel keys (elected_set_succeeded here ledger.elected) id
    · simpa using nominates

theorem Ledger.handleBindingResponse (raw : Bytes) (msg : StunMessage) (source : SocketAddr) :
    Ledger env (history ++ agent.responseBuilt env raw msg source) (agent.handleBindingResponse env raw msg source) := by
  have unchanged : Ledger env (history ++ []) agent := (List.append_nil history).symm ▸ ledger
  unfold responseBuilt IceAgent.handleBindingResponse
  cases StunMessage.verifyIntegrity env.suite raw agent.config.remotePwd.asBytes with
  | error e => exact unchanged
  | ok _ =>
    cases found : agent.inFlight.findIdx? (fun t => t.1 = msg.transactionId) with
    | none =>
      simp only [find?_of_findIdx?_none found]
      exact unchanged
    | some pos =>
      obtain ⟨⟨tid,pairIdx⟩,at',first,_⟩ := getElem?_of_findIdx? found
      have forgotten := ledger.forget pos
      simp only [first,at',Option.bind_some]
      cases here : agent.checkList[pairIdx]? with
      | none => exact (List.append_nil history).symm ▸ forgotten
      | some pair =>
        dsimp only
        by_cases same : source = pair.remote.addr
        · simp only [same,ne_eq,not_true_eq_false,if_false,true_and]
          exact forgotten.confirmPair here pair.remote.addr
        · simp only [same,ne_eq,not_false_eq_true,if_true,false_and,if_false]
          exact (List.append_nil history).symm ▸ forgotten

theorem Ledger.handleIncoming (data : Bytes) (source : SocketAddr) :
    Ledger env (history ++ agent.incomingBuilt env data source) (agent.handleIncoming env data source) := by
  unfold incomingBuilt IceAgent.handleIncoming
  cases StunMessage.decode env.suite data with
  | error e => exact (List.append_nil history).symm ▸ ledger
  | ok msg =>
    dsimp only
    cases msg.class' with
    | request => exact ledger.handleBindingRequest data msg source
    | successResponse => exact ledger.handleBindingResponse data msg source
    | errorResponse => exact (List.append_nil history).symm ▸ ledger
    | indication => exact (List.append_nil history).symm ▸ ledger

omit ledger in
theorem Ledger.drainInbox (n : Nat) {history : List Built} {agent : IceAgent} (ledger : Ledger env history agent) :
    Ledger env (history ++ drainBuilt env n agent) (IceAgent.drainInbox env n agent) := by
  induction n generalizing history agent with
  | zero => exact (List.append_nil history).symm ▸ ledger
  | succ n ih =>
    unfold drainBuilt IceAgent.drainInbox
    cases agent.inbox with
    | nil => exact (List.append_nil history).symm ▸ ledger
    | cons datagram rest =>
      have waiting : Ledger env history { agent with inbox := rest } := { ledger with }
      dsimp only
      rw [← List.append_assoc]
      exact ih (waiting.handleIncoming _ _)

end Ledger

end IceAgent

end Streamhaul
