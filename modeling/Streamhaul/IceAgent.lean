import Mathlib.Data.List.Sort
import Streamhaul.Stun

/-! The ICE agent: candidates, check list, connectivity checks and nomination. The clock
and what arrives on the socket are given to each step; the transaction ids the random
generator will hand out are a sequence of the environment, of which the agent has drawn
so many. -/
namespace Streamhaul

inductive CandidateKind where
  | host
  | serverReflexive
  | relay
  deriving DecidableEq

def CandidateKind.typePreference : CandidateKind → Nat
  | .host => 126
  | .serverReflexive => 100
  | .relay => 0

structure Candidate where
  kind : CandidateKind
  addr : SocketAddr
  base : SocketAddr
  priority : UInt32
  component : Nat
  deriving DecidableEq

def computePriority (kind : CandidateKind) (localPreference component : Nat) : UInt32 :=
  let a := min (2 ^ 24 * kind.typePreference) u32Max
  let b := min (2 ^ 8 * localPreference) u32Max
  let c := 256 - component
  UInt32.ofNat (satAdd u32Max (satAdd u32Max a b) c)

def Candidate.new (kind : CandidateKind) (addr base : SocketAddr) (component : Nat) : Candidate :=
  ⟨kind,addr,base,computePriority kind 65535 component,component⟩

inductive PairState where
  | waiting
  | inProgress
  | succeeded
  | failed
  | frozen
  deriving DecidableEq

structure CandidatePair where
  pairId : Nat
  localCandidate : Candidate
  remote : Candidate
  state : PairState
  priority : Nat
  nominated : Bool
  deriving DecidableEq

def computePairPriority (g d : UInt32) (isControlling : Bool) : Nat :=
  let (controlling,controlled) := if isControlling then (g.toNat,d.toNat) else (d.toNat,g.toNat)
  let tie := if controlling > controlled then 1 else 0
  satAdd u64Max (satAdd u64Max (min (2 ^ 32 * min controlling controlled) u64Max)
    (min (2 * max controlling controlled) u64Max)) tie

def CandidatePair.new (pairId : Nat) (localCandidate remote : Candidate) (isControlling : Bool) : CandidatePair :=
  ⟨pairId,localCandidate,remote,.frozen,
    computePairPriority localCandidate.priority remote.priority isControlling,false⟩

inductive IceRole where
  | controlling
  | controlled
  deriving DecidableEq

structure IceConfig where
  localAddrs : List SocketAddr
  role : IceRole
  tieBreaker : UInt64
  localUfrag : Text
  localPwd : Text
  remoteUfrag : Text
  remotePwd : Text
  deriving DecidableEq

inductive IceState where
  | new
  | gathering
  | checking
  | connected
  | failed
  | restarting
  deriving DecidableEq

def IceState.debug : IceState → String
  | .new => "New"
  | .gathering => "Gathering"
  | .checking => "Checking"
  | .connected => "Connected"
  | .failed => "Failed"
  | .restarting => "Restarting"

def checkTimeoutUs : Int := 5000000

/-- Bytes together with the address they go to or come from. -/
abbrev Datagram := Bytes × SocketAddr

structure IceEnv where
  suite : StunSuite
  tid : Nat → TransactionId

/-- The transport is its two queues: `sent` holds what was handed to `send_to`, `inbox`
what `recv_from` has not returned yet. -/
structure IceAgent where
  config : IceConfig
  state : IceState
  localCandidates : List Candidate
  remoteCandidates : List Candidate
  checkList : List CandidatePair
  nominatedIdx : Option Nat
  checkingStartedUs : Option Int
  outgoing : List Datagram
  inFlight : List (TransactionId × Nat)
  nextPairId : Nat
  drawn : Nat
  sent : List Datagram
  inbox : List Datagram
  deriving DecidableEq

structure CheckCreds where
  localUfrag : Text
  remoteUfrag : Text
  remotePwd : Bytes

def IceConfig.checkCreds (config : IceConfig) : CheckCreds :=
  ⟨config.localUfrag,config.remoteUfrag,config.remotePwd.asBytes⟩

/-- The message of a connectivity check, before it is signed. -/
def bindingRequest (tid : TransactionId) (role : IceRole) (tieBreaker : UInt64) (localPriority : UInt32)
    (nominate : Bool) (creds : CheckCreds) : StunMessage :=
  let msg := StunMessage.newBindingRequest tid
  let role' : StunAttribute := match role with
    | .controlling => .iceControlling tieBreaker
    | .controlled => .iceControlled tieBreaker
  { msg with attributes :=
      [.username (creds.remoteUfrag ++ ':' :: creds.localUfrag),.priority localPriority,role'] ++
        if nominate then [.useCandidate] else [] }

def buildBindingRequest (suite : StunSuite) (tid : TransactionId) (role : IceRole) (tieBreaker : UInt64)
    (localPriority : UInt32) (nominate : Bool) (creds : CheckCreds) : Bytes :=
  (bindingRequest tid role tieBreaker localPriority nominate creds).encodeWithIntegrity suite creds.remotePwd

/-- Gives pairs their ids from the counter, in order, and makes them wait for a check. -/
def numberPairs : Nat → List CandidatePair → List CandidatePair × Nat
  | next, [] => ([],next)
  | next, pair :: rest =>
    let (numbered,next') := numberPairs (satAdd u64Max next 1) rest
    ({ pair with pairId := next, state := .waiting } :: numbered,next')

/-- Stable, by descending priority. -/
def sortPairs (pairs : List CandidatePair) : List CandidatePair :=
  pairs.insertionSort (fun p q => q.priority ≤ p.priority)

def markNominated (pairs : List CandidatePair) (idx : Nat) : List CandidatePair :=
  pairs.modify idx (fun p => { p with nominated := true, state := .succeeded })

namespace IceAgent

def new (config : IceConfig) : IceAgent := ⟨config,.new,[],[],[],none,none,[],[],0,0,[],[]⟩

def isControlling (agent : IceAgent) : Bool := agent.config.role = .controlling

def nominatedPair (agent : IceAgent) : Option CandidatePair := agent.nominatedIdx.bind (agent.checkList[·]?)

def gather (agent : IceAgent) : Except IceError (List Candidate) × IceAgent :=
  if agent.config.localAddrs = [] then
    (.error (.gatherFailed "no local addresses configured"),{ agent with state := .failed })
  else
    let gathered := agent.config.localAddrs.map (fun addr => Candidate.new .host addr addr 1)
    (.ok gathered,{ agent with state := .gathering, localCandidates := gathered })

def rebuildCheckList (agent : IceAgent) : IceAgent :=
  let nominatedKey := agent.nominatedPair.map
    (fun p => (p.localCandidate.base,p.localCandidate.kind,p.remote.addr,p.remote.kind))
  let pairs := agent.localCandidates.flatMap (fun l => agent.remoteCandidates.map (fun r =>
    CandidatePair.new 0 l r agent.isControlling))
  let (numbered,nextPairId) := numberPairs agent.nextPairId pairs
  let sorted := sortPairs numbered
  let agent := { agent with checkList := sorted, inFlight := [], nextPairId := nextPairId }
  match nominatedKey with
  | none => { agent with nominatedIdx := none }
  | some key =>
    match sorted.findIdx? (fun p =>
      (p.localCandidate.base,p.localCandidate.kind,p.remote.addr,p.remote.kind) = key) with
    | none => { agent with nominatedIdx := none }
    | some idx => { agent with nominatedIdx := some idx, checkList := markNominated sorted idx }

def addRemoteCandidate (agent : IceAgent) (candidate : Candidate) : IceAgent :=
  rebuildCheckList { agent with remoteCandidates := agent.remoteCandidates ++ [candidate] }

/-- New pairs for a local candidate that joins a running check list. Indices are carried
over the sort by pair id. -/
def extendCheckList (agent : IceAgent) (newLocal : Candidate) : IceAgent :=
  let inFlightIds := agent.inFlight.filterMap (fun t => (agent.checkList[t.2]?).map (fun p => (t.1,p.pairId)))
  let nominatedPairId := agent.nominatedPair.map CandidatePair.pairId
  let (newPairs,nextPairId) := numberPairs agent.nextPairId
    (agent.remoteCandidates.map (fun r => CandidatePair.new 0 newLocal r agent.isControlling))
  let sorted := sortPairs (agent.checkList ++ newPairs)
  let inFlight := inFlightIds.filterMap (fun t =>
    (sorted.findIdx? (fun p => p.pairId = t.2)).map (fun idx => (t.1,idx)))
  let agent := { agent with checkList := sorted, inFlight := inFlight, nextPairId := nextPairId }
  match nominatedPairId with
  | none => agent
  | some pid =>
    match sorted.findIdx? (fun p => p.pairId = pid) with
    | none => { agent with nominatedIdx := none }
    | some idx => { agent with nominatedIdx := some idx, checkList := markNominated sorted idx }

def addRelayCandidate (agent : IceAgent) (relayAddr baseAddr : SocketAddr) : Except IceError Unit × IceAgent :=
  match agent.state with
  | .gathering | .checking | .connected =>
    let c := Candidate.new .relay relayAddr baseAddr 1
    let agent := { agent with localCandidates := agent.localCandidates ++ [c] }
    if agent.remoteCandidates = [] then (.ok (),agent)
    else if agent.state = .checking ∨ agent.state = .connected then (.ok (),agent.extendCheckList c)
    else (.ok (),agent.rebuildCheckList)
  | other =>
    (.error (.checkFailed ("add_relay_candidate called in invalid state " ++ other.debug ++
      "; call gather() first and wait for Gathering/Checking/Connected")),agent)

def route (agent : IceAgent) (viaRelay : Bool) (datagram : Datagram) : IceAgent :=
  if viaRelay then { agent with outgoing := agent.outgoing ++ [datagram] }
  else { agent with sent := agent.sent ++ [datagram] }

/-- Sends a check for a pair under the next transaction id and remembers the transaction. -/
def sendCheck (env : IceEnv) (agent : IceAgent) (idx : Nat) (pair : CandidatePair) (nominate : Bool)
    (dest : SocketAddr) : IceAgent :=
  let tid := env.tid agent.drawn
  let bytes := buildBindingRequest env.suite tid agent.config.role agent.config.tieBreaker
    pair.localCandidate.priority nominate agent.config.checkCreds
  let agent := { agent with drawn := agent.drawn + 1, inFlight := agent.inFlight ++ [(tid,idx)] }
  agent.route (pair.remote.kind == .relay) (bytes,dest)

section Checks

variable (env : IceEnv) (agent : IceAgent) (idx : Nat) (pair : CandidatePair) (nominate : Bool) (dest : SocketAddr)

theorem checkList_sendCheck : (agent.sendCheck env idx pair nominate dest).checkList = agent.checkList := by
  unfold sendCheck route
  dsimp only
  split <;> rfl

end Checks

def checkPair (env : IceEnv) (agent : IceAgent) (idx : Nat) : IceAgent :=
  match agent.checkList[idx]? with
  | none => agent
  | some pair =>
    if pair.state = .waiting then
      let agent := { agent with checkList := agent.checkList.set idx { pair with state := .inProgress } }
      agent.sendCheck env idx pair false pair.remote.addr
    else agent

def checkPairs (env : IceEnv) (agent : IceAgent) : Except IceError Unit × IceAgent :=
  if agent.checkList = [] then (.error (.checkFailed "check list is empty"),agent)
  else (.ok (),(List.range agent.checkList.length).foldl (checkPair env) agent)

/-- The part after the colon is compared with the own fragment. -/
def usernameValid (msg : StunMessage) (localUfrag : Text) : Bool :=
  msg.attributes.any (fun
    | .username u => match Text.splitOnce ':' u with
      | some (_,localPart) => localPart == localUfrag
      | none => false
    | _ => false)

def bindingResponse (msg : StunMessage) (source : SocketAddr) : StunMessage :=
  { StunMessage.newBindingResponse msg.transactionId with attributes := [.xorMappedAddress source] }

def respond (env : IceEnv) (agent : IceAgent) (msg : StunMessage) (source : SocketAddr) : IceAgent :=
  let bytes := (bindingResponse msg source).encodeWithIntegrity env.suite agent.config.localPwd.asBytes
  agent.route (agent.checkList.any (fun p => p.remote.addr == source && p.remote.kind == .relay)) (bytes,source)

/-- `USE-CANDIDATE` of a controlling sender nominates the first pair that targets it. -/
def followNomination (agent : IceAgent) (msg : StunMessage) (source : SocketAddr) : IceAgent :=
  let useCandidate := msg.attributes.any (fun
    | .useCandidate => true
    | _ => false)
  let senderIsControlling := msg.attributes.any (fun
    | .iceControlling _ => true
    | _ => false)
  if useCandidate && senderIsControlling then
    match agent.checkList.findIdx? (fun p => p.remote.addr = source) with
    | none => agent
    | some idx => { agent with checkList := markNominated agent.checkList idx, nominatedIdx := some idx }
  else agent

def unchecked (source : SocketAddr) (pair : CandidatePair) : Bool :=
  pair.remote.addr == source && (pair.state == .inProgress || pair.state == .waiting)

/-- A received request implies connectivity: unchecked pairs that target its sender succeed. -/
def succeedUnchecked (agent : IceAgent) (source : SocketAddr) : IceAgent :=
  { agent with checkList := agent.checkList.map (fun p =>
      if unchecked source p then { p with state := .succeeded } else p) }

/-- The triggered check. A controlling agent without a nominated pair nominates this one. -/
def sendTriggered (env : IceEnv) (agent : IceAgent) (idx : Nat) (source : SocketAddr) : IceAgent :=
  match agent.checkList[idx]? with
  | none => agent
  | some pair =>
    let shouldNominate := agent.isControlling && agent.nominatedIdx.isNone
    let checked := agent.sendCheck env idx pair shouldNominate source
    if shouldNominate then
      { checked with
        checkList := checked.checkList.modify idx (fun p => { p with nominated := true })
        nominatedIdx := some idx }
    else checked

def triggerCheck (env : IceEnv) (agent : IceAgent) (source : SocketAddr) : IceAgent :=
  match agent.checkList.findIdx? (unchecked source) with
  | none => agent.succeedUnchecked source
  | some idx => (agent.succeedUnchecked source).sendTriggered env idx source

def handleBindingRequest (env : IceEnv) (agent : IceAgent) (raw : Bytes) (msg : StunMessage)
    (source : SocketAddr) : IceAgent :=
  match StunMessage.verifyIntegrity env.suite raw agent.config.localPwd.asBytes with
  | .error _ => agent
  | .ok () =>
    if usernameValid msg agent.config.localUfrag then
      ((agent.respond env msg source).followNomination msg source).triggerCheck env source
    else agent

/-- A response to a check on a pair, from the address the check was sent to. -/
def confirmPair (env : IceEnv) (agent : IceAgent) (pairIdx : Nat) (pair : CandidatePair) (source : SocketAddr) :
    IceAgent :=
  let pair := { pair with state := .succeeded }
  if agent.isControlling && agent.nominatedIdx.isNone then
    let agent := { agent with
      checkList := agent.checkList.set pairIdx { pair with nominated := true }
      nominatedIdx := some pairIdx }
    agent.sendCheck env pairIdx pair true source
  else { agent with checkList := agent.checkList.set pairIdx pair }

def handleBindingResponse (env : IceEnv) (agent : IceAgent) (raw : Bytes) (msg : StunMessage)
    (source : SocketAddr) : IceAgent :=
  match StunMessage.verifyIntegrity env.suite raw agent.config.remotePwd.asBytes with
  | .error _ => agent
  | .ok () =>
    match agent.inFlight.findIdx? (fun t => t.1 = msg.transactionId) with
    | none => agent
    | some pos =>
      match agent.inFlight[pos]? with
      | none => agent
      | some (_,pairIdx) =>
        let agent := { agent with inFlight := agent.inFlight.eraseIdx pos }
        match agent.checkList[pairIdx]? with
        | none => agent
        | some pair => if source ≠ pair.remote.addr then agent else agent.confirmPair env pairIdx pair source

def handleIncoming (env : IceEnv) (agent : IceAgent) (data : Bytes) (source : SocketAddr) : IceAgent :=
  match StunMessage.decode env.suite data with
  | .error _ => agent
  | .ok msg =>
    match msg.class' with
    | .request => agent.handleBindingRequest env data msg source
    | .successResponse => agent.handleBindingResponse env data msg source
    | .errorResponse | .indication => agent

def recvBufferLen : Nat := 2048

/-- Up to so many datagrams are taken from the socket, each cut to the receive buffer. -/
def drainInbox (env : IceEnv) : Nat → IceAgent → IceAgent
  | 0, agent => agent
  | n + 1, agent =>
    match agent.inbox with
    | [] => agent
    | (data,source) :: rest =>
      drainInbox env n ({ agent with inbox := rest }.handleIncoming env (data.take recvBufferLen) source)

def drainTransportInbox (env : IceEnv) (agent : IceAgent) : IceAgent := drainInbox env 64 agent

def receive (agent : IceAgent) (arrivals : List Datagram) : IceAgent :=
  { agent with inbox := agent.inbox ++ arrivals }

/-- The state machine part of a step. `arrivals` reach the socket while the checks go out. -/
def drive (env : IceEnv) (agent : IceAgent) (nowUnixSecs : Int) (arrivals : List Datagram) :
    Except IceError Unit × IceAgent :=
  let nowUs := satMulI64 nowUnixSecs 1000000
  match agent.state with
  | .new => if agent.config.localAddrs = [] then (.ok (),agent) else (.ok (),agent.gather.2)
  | .gathering =>
    if agent.remoteCandidates = [] then (.ok (),agent)
    else (.ok (),{ agent.rebuildCheckList with state := .checking, checkingStartedUs := some nowUs })
  | .checking =>
    let agent := ((agent.checkPairs env).2.receive arrivals).drainTransportInbox env
    let timedOut := match agent.checkingStartedUs with
      | none => false
      | some started => satAddI64 nowUs (-started) > checkTimeoutUs
    if timedOut then (.error .timeout,{ agent with state := .failed })
    else if agent.nominatedIdx.isSome then (.ok (),{ agent with state := .connected })
    else (.ok (),agent)
  | .failed => (.ok (),{ agent with state := .restarting })
  | .restarting =>
    (.ok (),{ agent with
      localCandidates := [], remoteCandidates := [], checkList := [], nominatedIdx := none
      checkingStartedUs := none, inFlight := [], state := .new })
  | .connected => (.ok (),agent)

def step (env : IceEnv) (agent : IceAgent) (incoming : Option Datagram) (nowUnixSecs : Int)
    (arrivals : List Datagram) : Except IceError (List Datagram) × IceAgent :=
  let agent := match incoming with
    | none => agent
    | some (data,source) => agent.handleIncoming env data source
  let agent := agent.drainTransportInbox env
  let out := agent.outgoing
  match { agent with outgoing := [] }.drive env nowUnixSecs arrivals with
  | (.error e,agent) => (.error e,agent)
  | (.ok (),agent) => (.ok (out ++ agent.outgoing),{ agent with outgoing := [] })

end IceAgent

end Streamhaul
