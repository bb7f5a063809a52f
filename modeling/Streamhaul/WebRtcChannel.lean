import Streamhaul.AssocMap
import Streamhaul.Machine
import Streamhaul.Notify
import Streamhaul.Text

/-! Data channels of the WebRTC transport. The events of the engine fill one receive queue for each
channel. A `recv` takes the lock once in each round of its loop and sleeps on the notifier of its channel in
between, so events, other channels and the rounds of a `recv` interleave in any order. -/
namespace Streamhaul

/-- The error a channel reports. -/
inductive TransportError where
  | streamClosed
  deriving DecidableEq

def maxRecvQueueDepth : Nat := 512

/-- What the engine reports; the transport looks at nothing but channels. -/
inductive RtcEvent (Id : Type) where
  | channelOpen (id : Id) (label : Text)
  | channelData (id : Id) (binary : Bool) (data : Bytes)
  | channelClose (id : Id)
  | other
  deriving DecidableEq

structure WebRtcInner (Id N : Type) where
  recvQueues : AssocMap Id (List Bytes)
  recvNotifiers : AssocMap Id N
  dropCounters : AssocMap Id Nat
  acceptQueue : List (Id × Text)
  locallyOpened : List Id

namespace WebRtcInner

variable {Id N W : Type} [DecidableEq Id]

def new : WebRtcInner Id N := ⟨.empty,.empty,.empty,[],[]⟩

def waiting (inner : WebRtcInner Id N) (id : Id) : List Bytes := (inner.recvQueues.get? id).getD []

variable (wake : Notify N W)

def handleEvent (inner : WebRtcInner Id N) : RtcEvent Id → WebRtcInner Id N
  | .channelOpen id label =>
    let inner := { inner with recvQueues := inner.recvQueues.orInsert id [] }
    if id ∈ inner.locallyOpened then inner
    else { inner with acceptQueue := inner.acceptQueue ++ [(id,label)] }
  | .channelData id true data =>
    let inner := { inner with
      dropCounters := inner.dropCounters.orInsert id 0
      recvQueues := inner.recvQueues.orInsert id [] }
    if (inner.waiting id).length < maxRecvQueueDepth then
      { inner with
        recvQueues := inner.recvQueues.modify id (· ++ [data])
        recvNotifiers := inner.recvNotifiers.modify id wake.notifyOne }
    else { inner with dropCounters := inner.dropCounters.modify id (satAdd u64Max · 1) }
  | .channelData _ false _ => inner
  | .channelClose id =>
    { inner with
      recvQueues := inner.recvQueues.erase id
      recvNotifiers := inner.recvNotifiers.modify id wake.notifyWaiters }
  | .other => inner

section Queues

variable (inner : WebRtcInner Id N) (id id' : Id)

theorem recvQueues_channelOpen (label : Text) :
    (inner.handleEvent wake (.channelOpen id' label)).recvQueues.get? id =
      if id = id' then some (inner.waiting id) else inner.recvQueues.get? id := by
  have queues : (inner.handleEvent wake (.channelOpen id' label)).recvQueues = inner.recvQueues.orInsert id' [] := by
    unfold handleEvent
    dsimp only
    split <;> rfl
  rw [queues,AssocMap.get?_orInsert,waiting]
  split
  · next same => rw [same]
  · rfl

theorem recvQueues_channelData (data : Bytes) :
    (inner.handleEvent wake (.channelData id' true data)).recvQueues.get? id =
      if id = id' then
        some (if (inner.waiting id).length < maxRecvQueueDepth then inner.waiting id ++ [data] else inner.waiting id)
      else inner.recvQueues.get? id := by
  simp only [handleEvent,waiting,AssocMap.get?_orInsert,if_pos,Option.getD_some]
  by_cases room : ((inner.recvQueues.get? id').getD []).length < maxRecvQueueDepth
  · by_cases same : id = id'
    · subst same
      simp [room,AssocMap.get?_modify,AssocMap.get?_orInsert]
    · simp [room,same,AssocMap.get?_modify,AssocMap.get?_orInsert]
  · by_cases same : id = id'
    · subst same
      simp [room,AssocMap.get?_orInsert]
    · simp [room,same,AssocMap.get?_orInsert]

theorem recvQueues_channelClose :
    (inner.handleEvent wake (.channelClose id')).recvQueues.get? id =
      if id = id' then none else inner.recvQueues.get? id := AssocMap.get?_erase _ _ _

end Queues

def recvNotifierFor (inner : WebRtcInner Id N) (id : Id) : WebRtcInner Id N :=
  { inner with recvNotifiers := inner.recvNotifiers.orInsert id wake.new }

def notifier (inner : WebRtcInner Id N) (id : Id) : N := (inner.recvNotifiers.get? id).getD wake.new

section Notifiers

variable (inner : WebRtcInner Id N) (id id' : Id)

theorem recvNotifiers_channelOpen (label : Text) :
    (inner.handleEvent wake (.channelOpen id' label)).recvNotifiers = inner.recvNotifiers := by
  unfold handleEvent
  dsimp only
  split <;> rfl

theorem recvNotifiers_channelData (data : Bytes) :
    (inner.handleEvent wake (.channelData id' true data)).recvNotifiers =
      if (inner.waiting id').length < maxRecvQueueDepth then inner.recvNotifiers.modify id' wake.notifyOne
      else inner.recvNotifiers := by
  simp only [handleEvent,waiting,AssocMap.get?_orInsert,if_pos,Option.getD_some]
  exact apply_ite recvNotifiers _ _ _

theorem recvNotifiers_channelClose : (inner.handleEvent wake (.channelClose id')).recvNotifiers =
    inner.recvNotifiers.modify id' wake.notifyWaiters := rfl

theorem get?_recvNotifierFor :
    (inner.recvNotifierFor wake id').recvNotifiers.get? id =
      if id = id' then some (inner.notifier wake id) else inner.recvNotifiers.get? id := by
  rw [recvNotifierFor,AssocMap.get?_orInsert]
  split
  · next same => rw [same,notifier]
  · rfl

end Notifiers

end WebRtcInner

/-- Where the `recv` of a channel stands: at the head of its loop, with its future created, or with
the queue seen empty and the future awaited. -/
inductive RecvPhase (W : Type) where
  | idle
  | looping
  | registered (future : W)
  | parked (future : W)

structure WebRtcChannel (Id W : Type) where
  id : Id
  phase : RecvPhase W

abbrev Received := Except TransportError (Option Bytes)

namespace WebRtcChannel

variable {Id N W : Type}

/-- A `recv` is called; a channel has at most one. -/
def call (channel : WebRtcChannel Id W) : WebRtcChannel Id W :=
  match channel.phase with
  | .idle => { channel with phase := .looping }
  | _ => channel

theorem id_call (channel : WebRtcChannel Id W) : channel.call.id = channel.id := by
  unfold call
  split <;> rfl

variable [DecidableEq Id] (wake : Notify N W)

/-- The next step of the `recv` of a channel. -/
def recv (channel : WebRtcChannel Id W) (inner : WebRtcInner Id N) : Option Received × RecvPhase W × WebRtcInner Id N :=
  match channel.phase with
  | .idle => (none,.idle,inner)
  | .looping => (none,.registered (wake.notified (inner.notifier wake channel.id)),inner)
  | .registered future =>
    match inner.recvQueues.get? channel.id with
    | none => (some (.error .streamClosed),.idle,inner)
    | some (msg :: rest) =>
      (some (.ok (some msg)),.idle,{ inner with recvQueues := inner.recvQueues.insert channel.id rest })
    | some [] => (none,.parked future,inner)
  | .parked future =>
    let (ready,future,notify) := wake.poll future (inner.notifier wake channel.id)
    let inner := { inner with recvNotifiers := inner.recvNotifiers.insert channel.id notify }
    if ready then (none,.looping,inner) else (none,.parked future,inner)

end WebRtcChannel

structure WebRtcTransport (Id N W : Type) where
  inner : WebRtcInner Id N
  channels : List (WebRtcChannel Id W)

namespace WebRtcTransport

variable {Id N W : Type}

/-- What reaches the transport: an event, a channel opened or accepted, a `recv` called on the handle of a
channel, and that `recv` running one step on. -/
inductive Call (Id : Type) where
  | event (event : RtcEvent Id)
  | openChannel (id : Id)
  | acceptChannel
  | recv (handle : Nat)
  | run (handle : Nat)
  deriving DecidableEq

theorem getElem?_set_handle {channels : List (WebRtcChannel Id W)} {handle : Nat} {channel channel' : WebRtcChannel Id W}
    (here : channels[handle]? = some channel) : (channels.set handle channel')[handle]? = some channel' :=
  List.getElem?_set_self (List.getElem?_eq_some_iff.mp here).1

theorem ids_set {channels : List (WebRtcChannel Id W)} {handle : Nat} {channel channel' : WebRtcChannel Id W}
    (here : channels[handle]? = some channel) (same : channel'.id = channel.id) :
    (channels.set handle channel').map WebRtcChannel.id = channels.map WebRtcChannel.id := by
  obtain ⟨bound,there⟩ := List.getElem?_eq_some_iff.mp here
  apply List.ext_getElem?
  intro i
  rw [List.map_set,List.getElem?_set]
  split
  · next at_handle =>
    subst at_handle
    simp [bound,there,same]
  · rfl

variable [DecidableEq Id]

def new : WebRtcTransport Id N W := ⟨.new,[]⟩

variable (wake : Notify N W)

/-- The engine has made the channel of this id. -/
def openChannel (t : WebRtcTransport Id N W) (id : Id) : WebRtcTransport Id N W where
  inner := { t.inner with
    recvQueues := t.inner.recvQueues.orInsert id []
    locallyOpened := id :: t.inner.locallyOpened }.recvNotifierFor wake id
  channels := t.channels ++ [⟨id,.idle⟩]

def acceptChannel (t : WebRtcTransport Id N W) : WebRtcTransport Id N W :=
  match t.inner.acceptQueue with
  | [] => t
  | (id,_) :: rest =>
    { inner := { t.inner with acceptQueue := rest }.recvNotifierFor wake id
      channels := t.channels ++ [⟨id,.idle⟩] }

/-- One call, with what a `recv` returns by it. -/
def step (t : WebRtcTransport Id N W) : Call Id → Option (Id × Received) × WebRtcTransport Id N W
  | .event event => (none,{ t with inner := t.inner.handleEvent wake event })
  | .openChannel id => (none,t.openChannel wake id)
  | .acceptChannel => (none,t.acceptChannel wake)
  | .recv handle =>
    match t.channels[handle]? with
    | none => (none,t)
    | some channel => (none,⟨t.inner,t.channels.set handle channel.call⟩)
  | .run handle =>
    match t.channels[handle]? with
    | none => (none,t)
    | some channel =>
      let (received,phase,inner) := channel.recv wake t.inner
      (received.map (fun result => (channel.id,result)),⟨inner,t.channels.set handle ⟨channel.id,phase⟩⟩)

end WebRtcTransport

end Streamhaul
