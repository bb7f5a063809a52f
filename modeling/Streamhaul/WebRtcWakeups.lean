import Streamhaul.WebRtcChannel

/-! Sleeping readers. A `recv` registers its future before it looks at the queue, so that over every notifier that
keeps the laws no message and no close goes by while it sleeps: what its channel has to say, it says within three
steps. -/
namespace Streamhaul.WebRtcTransport

open Machine WebRtcInner

variable {Id N W : Type} [DecidableEq Id] {wake : Notify N W} {released : N → Prop} {held : N → W → Prop}

/-- What the notifier of a channel guarantees to its only `recv`. -/
def Settled (wake : Notify N W) (released : N → Prop) (held : N → W → Prop) (n : N) (queue : Option (List Bytes)) :
    RecvPhase W → Prop
  | .idle => released n
  | .looping => released n
  | .registered future => released n ∧ held n future
  | .parked future => held n future ∧ (queue = some [] ∨ wake.Ready n future)

section Signals

variable {n : N} {queue queue' : Option (List Bytes)} {phase : RecvPhase W}

theorem Settled.requeue (settled : Settled wake released held n queue phase) (empty : queue = some [] → queue' = some []) :
    Settled wake released held n queue' phase := by
  cases phase with
  | idle => exact settled
  | looping => exact settled
  | registered future => exact settled
  | parked future => exact ⟨settled.1,settled.2.imp_left empty⟩

theorem Settled.signal (settled : Settled wake released held n queue phase) {signal : N → N}
    (signals : wake.Signals released held signal) : Settled wake released held (signal n) queue' phase := by
  cases phase with
  | idle => exact signals.keeps_released n settled
  | looping => exact signals.keeps_released n settled
  | registered future => exact ⟨signals.keeps_released n settled.1,signals.keeps_held n future settled.2⟩
  | parked future => exact ⟨signals.keeps_held n future settled.1,.inr (signals.ready n future settled.1)⟩

end Signals

/-- The notifier of a channel exists and is settled for its `recv`. -/
def Attends (wake : Notify N W) (released : N → Prop) (held : N → W → Prop) (inner : WebRtcInner Id N)
    (channel : WebRtcChannel Id W) : Prop :=
  ∃ n, inner.recvNotifiers.get? channel.id = some n ∧
    Settled wake released held n (inner.recvQueues.get? channel.id) channel.phase

section Steps

variable {inner : WebRtcInner Id N} {channel : WebRtcChannel Id W}

/-- Every event that changes the queue of a channel notifies its reader. -/
theorem Attends.handleEvent (attends : Attends wake released held inner channel) (lawful : wake.Lawful released held)
    (event : RtcEvent Id) : Attends wake released held (inner.handleEvent wake event) channel := by
  obtain ⟨n,here,settled⟩ := attends
  unfold Attends
  cases event with
  | channelOpen id' label =>
    refine ⟨n,by rw [recvNotifiers_channelOpen]; exact here,settled.requeue (fun empty => ?_)⟩
    rw [recvQueues_channelOpen,waiting,empty]
    split <;> rfl
  | channelData id' binary data =>
    cases binary with
    | false => exact ⟨n,here,settled⟩
    | true =>
      rw [recvNotifiers_channelData]
      by_cases same : channel.id = id'
      · by_cases room : (inner.waiting id').length < maxRecvQueueDepth
        · refine ⟨wake.notifyOne n,?_,settled.signal lawful.notifyOne⟩
          rw [if_pos room,AssocMap.get?_modify,if_pos same,← same,here,Option.map_some]
        · refine ⟨n,by rw [if_neg room]; exact here,settled.requeue (fun empty => ?_)⟩
          rw [recvQueues_channelData,if_pos same,same,if_neg room,waiting,← same,empty,Option.getD_some]
      · refine ⟨n,?_,settled.requeue (fun empty => ?_)⟩
        · split
          · rw [AssocMap.get?_modify,if_neg same]
            exact here
          · exact here
        · rw [recvQueues_channelData,if_neg same]
          exact empty
  | channelClose id' =>
    by_cases same : channel.id = id'
    · refine ⟨wake.notifyWaiters n,?_,settled.signal lawful.notifyWaiters⟩
      rw [recvNotifiers_channelClose,AssocMap.get?_modify,if_pos same,← same,here,Option.map_some]
    · refine ⟨n,?_,settled.requeue (fun empty => ?_)⟩
      · rw [recvNotifiers_channelClose,AssocMap.get?_modify,if_neg same]
        exact here
      · rw [recvQueues_channelClose,if_neg same]
        exact empty
  | other => exact ⟨n,here,settled⟩

/-- A step of `recv` leaves its notifier settled for the phase it comes to. -/
theorem Attends.recv (attends : Attends wake released held inner channel) (lawful : wake.Lawful released held) :
    Attends wake released held (channel.recv wake inner).2.2 ⟨channel.id,(channel.recv wake inner).2.1⟩ := by
  obtain ⟨n,here,settled⟩ := attends
  have notifier : inner.notifier wake channel.id = n := by rw [notifier,here,Option.getD_some]
  unfold WebRtcChannel.recv
  cases phase : channel.phase with
  | idle =>
    rw [phase] at settled
    exact ⟨n,here,settled⟩
  | looping =>
    rw [phase] at settled
    exact ⟨n,here,settled,by rw [notifier]; exact lawful.notified n settled⟩
  | registered future =>
    rw [phase] at settled
    dsimp only
    split
    · exact ⟨n,here,settled.1⟩
    · exact ⟨n,here,settled.1⟩
    · next empty => exact ⟨n,here,settled.2,.inl empty⟩
  | parked future =>
    rw [phase] at settled
    obtain ⟨own,alert⟩ := settled
    dsimp only
    rw [notifier]
    have there : (inner.recvNotifiers.insert channel.id (wake.poll future n).2.2).get? channel.id =
      some (wake.poll future n).2.2 := by rw [AssocMap.get?_insert,if_pos rfl]
    split
    · next ready => exact ⟨_,there,lawful.completed n future own ready⟩
    · next unready => exact ⟨_,there,lawful.waits n future own unready,.inl (alert.resolve_right unready)⟩

theorem recv_frame (channel : WebRtcChannel Id W) (inner : WebRtcInner Id N) {id : Id} (apart : id ≠ channel.id) :
    (channel.recv wake inner).2.2.recvQueues.get? id = inner.recvQueues.get? id ∧
      (channel.recv wake inner).2.2.recvNotifiers.get? id = inner.recvNotifiers.get? id := by
  unfold WebRtcChannel.recv
  split
  · exact ⟨rfl,rfl⟩
  · exact ⟨rfl,rfl⟩
  · split
    · exact ⟨rfl,rfl⟩
    · exact ⟨by rw [AssocMap.get?_insert,if_neg apart],rfl⟩
    · exact ⟨rfl,rfl⟩
  · dsimp only
    split <;> exact ⟨rfl,by rw [AssocMap.get?_insert,if_neg apart]⟩

/-- Events make no notifiers. -/
theorem notifier_handleEvent {event : RtcEvent Id} {id : Id}
    (made : ((inner.handleEvent wake event).recvNotifiers.get? id).isSome) : (inner.recvNotifiers.get? id).isSome := by
  cases event with
  | channelOpen id' label => rwa [recvNotifiers_channelOpen] at made
  | channelData id' binary data =>
    cases binary with
    | false => exact made
    | true =>
      rw [recvNotifiers_channelData] at made
      split at made
      · rw [AssocMap.get?_modify] at made
        split at made <;> simp_all
      · exact made
  | channelClose id' =>
    rw [recvNotifiers_channelClose,AssocMap.get?_modify] at made
    split at made <;> simp_all
  | other => exact made

end Steps

/-- The channels of all handles, in the order they were handed out. -/
def ids (t : WebRtcTransport Id N W) : List Id := t.channels.map WebRtcChannel.id

/-- The channel of this handle has no other. -/
def Sole (t : WebRtcTransport Id N W) (handle : Nat) (id : Id) : Prop := ∀ other, t.ids[other]? = some id → other = handle

/-- Notifiers belong to channels with a handle, and a channel's only reader is attended. -/
structure Tended (wake : Notify N W) (released : N → Prop) (held : N → W → Prop) (t : WebRtcTransport Id N W) : Prop where
  owned : ∀ id, (t.inner.recvNotifiers.get? id).isSome → id ∈ t.ids
  attends : ∀ handle channel, t.channels[handle]? = some channel → t.Sole handle channel.id →
    Attends wake released held t.inner channel

section Runs

variable {t : WebRtcTransport Id N W}

/-- A new handle starts with nothing registered. -/
theorem Tended.added (tended : Tended wake released held t) (lawful : wake.Lawful released held)
    {inner : WebRtcInner Id N} {id' : Id} (notifiers : ∀ id, inner.recvNotifiers.get? id =
      if id = id' then some (t.inner.notifier wake id) else t.inner.recvNotifiers.get? id)
    (queues : ∀ id, id ≠ id' → inner.recvQueues.get? id = t.inner.recvQueues.get? id) :
    Tended wake released held ⟨inner,t.channels ++ [⟨id',.idle⟩]⟩ := by
  have ids' : ids ⟨inner,t.channels ++ [⟨id',.idle⟩]⟩ = t.ids ++ [id'] := List.map_append
  constructor
  · intro id made
    rw [ids',List.mem_append,List.mem_singleton]
    by_cases same : id = id'
    · exact .inr same
    · rw [notifiers,if_neg same] at made
      exact .inl (tended.owned id made)
  · intro handle channel here sole
    rw [Sole,ids'] at sole
    have earlier : t.Sole handle channel.id := by
      intro other there
      apply sole
      rwa [List.getElem?_append_left (List.getElem?_eq_some_iff.mp there).1]
    by_cases old : handle < t.channels.length
    · rw [List.getElem?_append_left old] at here
      obtain ⟨n,there,settled⟩ := tended.attends handle channel here earlier
      have apart : channel.id ≠ id' := by
        rintro rfl
        have last := sole t.ids.length (by simp)
        rw [ids,List.length_map] at last
        omega
      refine ⟨n,by rw [notifiers,if_neg apart]; exact there,?_⟩
      rw [queues _ apart]
      exact settled
    · rw [List.getElem?_append_right (Nat.le_of_not_lt old)] at here
      obtain ⟨rfl⟩ : channel = ⟨id',.idle⟩ := by
        simpa using (List.mem_of_getElem? here)
      have unknown : t.inner.recvNotifiers.get? id' = none := by
        rw [← Option.not_isSome_iff_eq_none]
        intro made
        obtain ⟨other,bound,there⟩ := List.mem_iff_getElem.mp (tended.owned id' made)
        have equal := earlier other (List.getElem?_eq_some_iff.mpr ⟨bound,there⟩)
        rw [ids,List.length_map] at bound
        omega
      refine ⟨wake.new,?_,lawful.new⟩
      rw [notifiers,if_pos rfl,notifier,unknown,Option.getD_none]

/-- The reader of one handle moves and leaves the other channels alone. -/
theorem Tended.moved (tended : Tended wake released held t) {inner : WebRtcInner Id N} {handle : Nat}
    {channel channel' : WebRtcChannel Id W} (here : t.channels[handle]? = some channel) (same : channel'.id = channel.id)
    (own : Attends wake released held t.inner channel → Attends wake released held inner channel')
    (frame : ∀ id, id ≠ channel.id → inner.recvQueues.get? id = t.inner.recvQueues.get? id ∧
      inner.recvNotifiers.get? id = t.inner.recvNotifiers.get? id) :
    Tended wake released held ⟨inner,t.channels.set handle channel'⟩ := by
  have ids' : ids ⟨inner,t.channels.set handle channel'⟩ = t.ids := ids_set here same
  constructor
  · intro id made
    rw [ids']
    by_cases mine : id = channel.id
    · rw [mine]
      exact List.mem_map_of_mem (List.mem_of_getElem? here)
    · rw [(frame id mine).2] at made
      exact tended.owned id made
  · intro h c there sole
    rw [Sole,ids'] at sole
    rw [List.getElem?_set] at there
    split at there
    · next at_handle =>
      subst at_handle
      split at there
      · cases there
        rw [same] at sole
        exact own (tended.attends handle channel here sole)
      · cases there
    · next elsewhere =>
      have apart : c.id ≠ channel.id := by
        intro equal
        refine elsewhere (sole handle ?_)
        rw [ids,List.getElem?_map,here,Option.map_some,equal]
      obtain ⟨n,noted,settled⟩ := tended.attends h c there sole
      refine ⟨n,by rw [(frame _ apart).2]; exact noted,?_⟩
      rw [(frame _ apart).1]
      exact settled

theorem Tended.step (tended : Tended wake released held t) (lawful : wake.Lawful released held) (call : Call Id) :
    Tended wake released held (step wake t call).2 := by
  cases call with
  | event event =>
    exact ⟨fun id made => tended.owned id (notifier_handleEvent made),
      fun handle channel here sole => (tended.attends handle channel here sole).handleEvent lawful event⟩
  | openChannel id =>
    refine tended.added lawful (fun id' => get?_recvNotifierFor _ _ _ _) (fun id' apart => ?_)
    rw [recvNotifierFor,AssocMap.get?_orInsert,if_neg apart]
  | acceptChannel =>
    simp only [WebRtcTransport.step,acceptChannel]
    split
    · exact tended
    · next id label rest queue => exact tended.added lawful (fun id' => get?_recvNotifierFor _ _ _ _) (fun _ _ => rfl)
  | recv handle =>
    simp only [WebRtcTransport.step]
    split
    · exact tended
    · next channel here =>
      refine tended.moved here channel.id_call ?_ (fun _ _ => ⟨rfl,rfl⟩)
      rintro ⟨n,there,settled⟩
      unfold WebRtcChannel.call
      split
      · next idle =>
        rw [idle] at settled
        exact ⟨n,there,settled⟩
      · exact ⟨n,there,settled⟩
  | run handle =>
    simp only [WebRtcTransport.step]
    split
    · exact tended
    · next channel here =>
      exact tended.moved here rfl (fun attends => attends.recv lawful) (fun id apart => recv_frame channel t.inner apart)

theorem tended_run (lawful : wake.Lawful released held) (calls : List (Call Id)) :
    Tended wake released held (final (step wake) new calls) := by
  refine final_invariant (step wake) (fun _ _ => True) (Tended wake released held)
    (fun _ call _ tended => tended.step lawful call) new calls ⟨?_,?_⟩ (fun _ _ => trivial)
  · intro id made
    cases made
  · intro handle channel here
    cases here

end Runs

/-- What the locked section of `recv` returns on a queue. -/
def answer : Option (List Bytes) → Option Received
  | none => some (.error .streamClosed)
  | some [] => none
  | some (msg :: _) => some (.ok (some msg))

/-- The `recv` of a handle returns this within so many of its own steps. -/
def Answers (wake : Notify N W) (t : WebRtcTransport Id N W) (handle : Nat) (id : Id) (result : Received) (steps : Nat) :
    Prop :=
  ∃ e ∈ trace (step wake) t (List.replicate steps (.run handle)), e.response = some (id,result)

section Progress

variable {t : WebRtcTransport Id N W} {handle : Nat} {id : Id} {result : Received} {steps : Nat}

theorem Answers.later (later : Answers wake (step wake t (.run handle)).2 handle id result steps) :
    Answers wake t handle id result (steps + 1) := by
  obtain ⟨e,member,response⟩ := later
  exact ⟨e,List.mem_cons_of_mem _ member,response⟩

theorem step_run {channel : WebRtcChannel Id W} (here : t.channels[handle]? = some channel) :
    step wake t (.run handle) = ((channel.recv wake t.inner).1.map (fun result => (channel.id,result)),
      ⟨(channel.recv wake t.inner).2.2,t.channels.set handle ⟨channel.id,(channel.recv wake t.inner).2.1⟩⟩) := by
  simp only [step,here]

theorem answers_registered {future : W} (here : t.channels[handle]? = some ⟨id,.registered future⟩)
    (available : answer (t.inner.recvQueues.get? id) = some result) : Answers wake t handle id result (steps + 1) := by
  refine ⟨fire (step wake) t (.run handle),List.mem_cons_self,?_⟩
  have returned : (WebRtcChannel.recv wake ⟨id,.registered future⟩ t.inner).1 = some result := by
    unfold WebRtcChannel.recv
    revert available
    rcases t.inner.recvQueues.get? id with _ | _ | ⟨msg,rest⟩ <;> exact fun same => same
  rw [fire,step_run here,returned,Option.map_some]

theorem answers_looping (here : t.channels[handle]? = some ⟨id,.looping⟩)
    (available : answer (t.inner.recvQueues.get? id) = some result) : Answers wake t handle id result (steps + 2) := by
  apply Answers.later
  rw [step_run here]
  exact answers_registered (getElem?_set_handle here) available

theorem answers_parked {future : W} (here : t.channels[handle]? = some ⟨id,.parked future⟩)
    (ready : wake.Ready (t.inner.notifier wake id) future)
    (available : answer (t.inner.recvQueues.get? id) = some result) : Answers wake t handle id result (steps + 3) := by
  have woken : WebRtcChannel.recv wake ⟨id,.parked future⟩ t.inner =
      (none,.looping,{ t.inner with
        recvNotifiers := t.inner.recvNotifiers.insert id (wake.poll future (t.inner.notifier wake id)).2.2 }) := by
    unfold WebRtcChannel.recv
    exact if_pos ready
  apply Answers.later
  rw [step_run here,woken]
  exact answers_looping (getElem?_set_handle here) available

end Progress

/-- After every run, a `recv` in progress on a channel with one handle returns within three of its
steps whatever its queue has for it: no message and no close is slept through. -/
theorem recv_answers (lawful : wake.Lawful released held) (calls : List (Call Id)) {handle : Nat}
    {channel : WebRtcChannel Id W} {result : Received}
    (here : (final (step wake) new calls).channels[handle]? = some channel)
    (sole : (final (step wake) new calls).Sole handle channel.id) (busy : channel.phase ≠ .idle)
    (available : answer ((final (step wake) new calls).inner.recvQueues.get? channel.id) = some result) :
    Answers wake (final (step wake) new calls) handle channel.id result 3 := by
  obtain ⟨n,there,settled⟩ := (tended_run lawful calls).attends handle channel here sole
  obtain ⟨id,phase⟩ := channel
  cases phase with
  | idle => exact absurd rfl busy
  | looping => exact answers_looping here available
  | registered future => exact answers_registered here available
  | parked future =>
    refine answers_parked here ?_ available
    rw [notifier,there,Option.getD_some]
    refine settled.2.resolve_left (fun empty => ?_)
    rw [empty] at available
    cases available

end Streamhaul.WebRtcTransport
