import Streamhaul.WebRtcChannel

/-! What a channel's `recv` returns, compared with what arrived on the channel. -/
namespace Streamhaul.WebRtcTransport

open Machine WebRtcInner

variable {Id N W : Type} [DecidableEq Id]

/-- The binary message a call brings to a channel. -/
def brings (id : Id) : Call Id → Option Bytes
  | .event (.channelData id' true data) => if id = id' then some data else none
  | _ => none

/-- The message a `recv` of a channel returns. -/
def gives (id : Id) : Option (Id × Received) → Option Bytes
  | some (id',.ok msg) => if id = id' then msg else none
  | _ => none

def closes (id : Id) : Call Id → Bool
  | .event (.channelClose id') => id = id'
  | _ => false

theorem closes_iff {id : Id} {call : Call Id} : closes id call = true ↔ call = .event (.channelClose id) := by
  unfold closes
  split
  · simp [eq_comm]
  · next other => exact iff_of_false Bool.false_ne_true (fun same => other id same)

/-- How a call changes the queue of one channel, with the message it brings and the one it gives. -/
inductive Move : Bool → Option (List Bytes) → Option Bytes → Option Bytes → Option (List Bytes) → Prop
  | kept (queue : Option (List Bytes)) : Move false queue none none queue
  | made (queue : Option (List Bytes)) : Move false queue none none (some (queue.getD []))
  | pushed (queue : Option (List Bytes)) (msg : Bytes) (room : (queue.getD []).length < maxRecvQueueDepth) :
      Move false queue (some msg) none (some (queue.getD [] ++ [msg]))
  | dropped (queue : Option (List Bytes)) (msg : Bytes) (full : ¬(queue.getD []).length < maxRecvQueueDepth) :
      Move false queue (some msg) none (some (queue.getD []))
  | popped (msg : Bytes) (rest : List Bytes) : Move false (some (msg :: rest)) none (some msg) (some rest)
  | closed (queue : Option (List Bytes)) : Move true queue none none none

section Steps

variable (wake : Notify N W) (id : Id)

theorem handleEvent_move (inner : WebRtcInner Id N) (event : RtcEvent Id) :
    Move (closes id (.event event)) (inner.recvQueues.get? id) (brings id (.event event)) none
      ((inner.handleEvent wake event).recvQueues.get? id) := by
  cases event with
  | channelOpen id' label =>
    rw [recvQueues_channelOpen]
    split
    · exact .made _
    · exact .kept _
  | channelData id' binary data =>
    cases binary with
    | false => exact .kept _
    | true =>
      rw [recvQueues_channelData,brings]
      split
      · split
        · next room => exact .pushed _ data room
        · next full => exact .dropped _ data full
      · exact .kept _
  | channelClose id' =>
    rw [recvQueues_channelClose,closes]
    by_cases same : id = id'
    · rw [if_pos same,decide_eq_true same]
      exact .closed _
    · rw [if_neg same,decide_eq_false same]
      exact .kept _
  | other => exact .kept _

theorem recv_move (channel : WebRtcChannel Id W) (inner : WebRtcInner Id N) :
    Move false (inner.recvQueues.get? id) none
      (gives id ((channel.recv wake inner).1.map (fun result => (channel.id,result))))
      ((channel.recv wake inner).2.2.recvQueues.get? id) := by
  unfold WebRtcChannel.recv
  split
  · exact .kept _
  · exact .kept _
  · split
    · exact .kept _
    · next msg rest queue =>
      simp only [Option.map_some,gives,AssocMap.get?_insert]
      by_cases same : id = channel.id
      · rw [if_pos same,if_pos same,same,queue]
        exact .popped msg rest
      · rw [if_neg same,if_neg same]
        exact .kept _
    · exact .kept _
  · dsimp only
    split
    · exact .kept _
    · exact .kept _

theorem step_move (t : WebRtcTransport Id N W) (call : Call Id) :
    Move (closes id call) (t.inner.recvQueues.get? id) (brings id call) (gives id (step wake t call).1)
      ((step wake t call).2.inner.recvQueues.get? id) := by
  cases call with
  | event event => exact handleEvent_move wake id t.inner event
  | openChannel id' =>
    simp only [step,openChannel,recvNotifierFor,AssocMap.get?_orInsert,closes,brings,gives]
    split
    · next same =>
      rw [same]
      exact .made _
    · exact .kept _
  | acceptChannel =>
    simp only [step,acceptChannel]
    split
    · exact .kept _
    · exact .kept _
  | recv handle =>
    simp only [step]
    split
    · exact .kept _
    · exact .kept _
  | run handle =>
    simp only [step]
    split
    · exact .kept _
    · next channel here => exact recv_move wake id channel t.inner

end Steps

section Moves

variable {closing : Bool} {before after : Option (List Bytes)} {brought given : Option Bytes} {returned arrived : List Bytes}

theorem Move.sublist (move : Move closing before brought given after)
    (ordered : (returned ++ before.getD []).Sublist arrived) :
    (returned ++ given.toList ++ after.getD []).Sublist (arrived ++ brought.toList) := by
  cases move with
  | kept => simpa using ordered
  | made => simpa using ordered
  | pushed _ msg room => simpa [← List.append_assoc] using ordered
  | dropped _ msg full => simpa using ordered.trans (List.sublist_append_left arrived [msg])
  | popped msg rest => simpa using ordered
  | closed => simpa using (List.sublist_append_left returned (before.getD [])).trans ordered

/-- A move with room in the queue loses nothing exactly when nothing was lost before and it does not close a
queue with messages in it. -/
theorem Move.lossless_iff (move : Move closing before brought given after)
    (ordered : (returned ++ before.getD []).Sublist arrived) (room : (before.getD []).length < maxRecvQueueDepth) :
    returned ++ given.toList ++ after.getD [] = arrived ++ brought.toList ↔
      returned ++ before.getD [] = arrived ∧ (closing = true → before.getD [] = []) := by
  cases move with
  | kept => simp
  | made => simp
  | pushed _ msg => simp [← List.append_assoc]
  | dropped _ msg full => exact absurd room full
  | popped msg rest => simp
  | closed =>
    simp only [Option.toList_none,List.append_nil,Option.getD_none,forall_const]
    constructor
    · rintro rfl
      have drained : before.getD [] = [] := by
        have size := ordered.length_le
        rw [List.length_append] at size
        exact List.eq_nil_of_length_eq_zero (by omega)
      exact ⟨by rw [drained,List.append_nil],drained⟩
    · rintro ⟨whole,drained⟩
      rwa [drained,List.append_nil] at whole

/-- Only a close takes a queue away. -/
theorem Move.present (move : Move closing before brought given after) (queue : before.isSome = true) :
    after.isSome = true ∨ closing = true := by
  cases move with
  | kept => exact .inl queue
  | made => exact .inl rfl
  | pushed => exact .inl rfl
  | dropped => exact .inl rfl
  | popped => exact .inl rfl
  | closed => exact .inr rfl

end Moves

section Runs

variable (wake : Notify N W) (id : Id)

def arrived (calls : List (Call Id)) : List Bytes := calls.filterMap (brings id)

def returned (calls : List (Call Id)) : List Bytes :=
  (trace (step wake) new calls).filterMap (fun e => gives id e.response)

def pending (calls : List (Call Id)) : List Bytes := (final (step wake) new calls).inner.waiting id

theorem arrived_concat (earlier : List (Call Id)) (call : Call Id) :
    arrived id (earlier ++ [call]) = arrived id earlier ++ (brings id call).toList := filterMap_concat _ _ _

theorem returned_concat (earlier : List (Call Id)) (call : Call Id) :
    returned wake id (earlier ++ [call]) =
      returned wake id earlier ++ (gives id (step wake (final (step wake) new earlier) call).1).toList := by
  rw [returned,trace_append]
  exact filterMap_concat _ _ _

theorem move_concat (earlier : List (Call Id)) (call : Call Id) :
    Move (closes id call) ((final (step wake) new earlier).inner.recvQueues.get? id) (brings id call)
      (gives id (step wake (final (step wake) new earlier) call).1)
      ((final (step wake) new (earlier ++ [call])).inner.recvQueues.get? id) := by
  rw [final_append]
  exact step_move wake id (final (step wake) new earlier) call

theorem returned_sublist (calls : List (Call Id)) :
    (returned wake id calls ++ pending wake id calls).Sublist (arrived id calls) := by
  induction calls using List.reverseRecOn with
  | nil => exact List.Sublist.refl _
  | append_singleton earlier call ih =>
    rw [returned_concat,arrived_concat]
    exact (move_concat wake id earlier call).sublist ih

theorem lossless_iff (calls : List (Call Id))
    (room : ∀ e ∈ trace (step wake) new calls, (e.before.inner.waiting id).length < maxRecvQueueDepth) :
    returned wake id calls ++ pending wake id calls = arrived id calls ↔
      ∀ e ∈ trace (step wake) new calls, closes id e.call = true → e.before.inner.waiting id = [] := by
  induction calls using List.reverseRecOn with
  | nil => exact iff_of_true rfl (fun e none => (nomatch none))
  | append_singleton earlier call ih =>
    rw [trace_append,List.forall_mem_append] at room
    have now := room.2 (fire (step wake) (final (step wake) new earlier) call) (List.mem_singleton.mpr rfl)
    have last : (∀ e ∈ trace (step wake) (final (step wake) new earlier) [call], closes id e.call = true →
        e.before.inner.waiting id = []) ↔ (closes id call = true → pending wake id earlier = []) := List.forall_mem_singleton
    rw [trace_append,List.forall_mem_append,last,← ih room.1,returned_concat,arrived_concat]
    exact (move_concat wake id earlier call).lossless_iff (returned_sublist wake id earlier) now

/-- The transport has a handle for the channel, or will hand one out. -/
def Known (t : WebRtcTransport Id N W) : Prop :=
  id ∈ t.channels.map WebRtcChannel.id ∨ id ∈ t.inner.acceptQueue.map Prod.fst

variable {wake} {id} {t : WebRtcTransport Id N W}

theorem known_handleEvent {event : RtcEvent Id} (known : Known id { t with inner := t.inner.handleEvent wake event }) :
    Known id t ∨ ((t.inner.handleEvent wake event).recvQueues.get? id).isSome = true := by
  cases event with
  | channelOpen id' label =>
    rw [recvQueues_channelOpen]
    by_cases same : id = id'
    · exact .inr (by rw [if_pos same]; rfl)
    · left
      refine known.imp_right (fun queued => ?_)
      simp only [handleEvent] at queued
      split at queued
      · exact queued
      · simpa [same] using queued
  | channelData id' binary data =>
    left
    cases binary with
    | false => exact known
    | true =>
      refine known.imp_right (fun queued => ?_)
      simp only [handleEvent] at queued
      split at queued <;> exact queued
  | channelClose id' => exact .inl known
  | other => exact .inl known

theorem acceptQueue_recv (channel : WebRtcChannel Id W) (inner : WebRtcInner Id N) :
    (channel.recv wake inner).2.2.acceptQueue = inner.acceptQueue := by
  unfold WebRtcChannel.recv
  split
  · rfl
  · rfl
  · split <;> rfl
  · dsimp only
    split <;> rfl

theorem known_step {call : Call Id} (known : Known id (step wake t call).2) :
    Known id t ∨ ((step wake t call).2.inner.recvQueues.get? id).isSome = true := by
  cases call with
  | event event => exact known_handleEvent known
  | openChannel id' =>
    simp only [step,openChannel,recvNotifierFor,Known,List.map_append,List.mem_append,List.map_cons,List.map_nil,
      List.mem_singleton,AssocMap.get?_orInsert] at known ⊢
    by_cases same : id = id'
    · simp [same]
    · exact .inl (by simpa [same] using known)
  | acceptChannel =>
    left
    simp only [step,acceptChannel] at known
    split at known
    · exact known
    · next id' label rest queue =>
      simp only [Known,recvNotifierFor,List.map_append,List.mem_append,List.map_cons,List.map_nil,queue,
        List.mem_cons] at known ⊢
      tauto
  | recv handle =>
    left
    simp only [step] at known
    split at known
    · exact known
    · next channel here =>
      rw [Known,ids_set here channel.id_call] at known
      exact known
  | run handle =>
    left
    simp only [step] at known
    split at known
    · exact known
    · next channel here =>
      have ids : (t.channels.set handle ⟨channel.id,(channel.recv wake t.inner).2.1⟩).map WebRtcChannel.id =
        t.channels.map WebRtcChannel.id := ids_set here rfl
      simpa only [Known,ids,acceptQueue_recv] using known

theorem recv_streamClosed {channel : WebRtcChannel Id W} {inner : WebRtcInner Id N}
    (reported : (channel.recv wake inner).1 = some (.error .streamClosed)) :
    inner.recvQueues.get? channel.id = none := by
  unfold WebRtcChannel.recv at reported
  split at reported
  · cases reported
  · cases reported
  · split at reported
    · next missing => exact missing
    · cases reported
    · cases reported
  · dsimp only at reported
    split at reported <;> cases reported

theorem step_streamClosed {call : Call Id}
    (reported : (step wake t call).1 = some (id,.error .streamClosed)) : t.inner.recvQueues.get? id = none ∧ Known id t := by
  cases call with
  | run handle =>
    simp only [step] at reported
    split at reported
    · cases reported
    · next channel here =>
      obtain ⟨result,returned,same⟩ := Option.map_eq_some_iff.mp reported
      cases same
      exact ⟨recv_streamClosed returned,.inl (List.mem_map_of_mem (List.mem_of_getElem? here))⟩
  | recv handle =>
    simp only [step] at reported
    split at reported <;> cases reported
  | _ => cases reported

theorem known_run (wake : Notify N W) (id : Id) (calls : List (Call Id)) : Known id (final (step wake) new calls) →
    ((final (step wake) new calls).inner.recvQueues.get? id).isSome = true ∨ ∃ call ∈ calls, closes id call = true := by
  apply calls_invariant (step wake) (fun calls t => Known id t →
    (t.inner.recvQueues.get? id).isSome = true ∨ ∃ call ∈ calls, closes id call = true)
  · intro earlier t call ih known
    rcases known_step known with before | made
    · rcases ih before with queue | ⟨call',member,closing⟩
      · refine ((step_move wake id t call).present queue).imp_right (fun closing => ?_)
        exact ⟨call,List.mem_append_right _ (List.mem_singleton.mpr rfl),closing⟩
      · exact .inr ⟨call',List.mem_append_left _ member,closing⟩
    · exact .inl made
  · rintro (none | none) <;> cases none

end Runs

/-- While a channel's queue has room, each binary message that arrived is returned once and in order or still
waits, and the channel is reported closed only once it is closed and everything was returned, exactly when every
close finds the queue empty. How the sleeping `recv` is woken does not matter. -/
theorem delivers_iff (wake : Notify N W) (id : Id) (calls : List (Call Id))
    (room : ∀ e ∈ trace (step wake) new calls, (e.before.inner.waiting id).length < maxRecvQueueDepth) :
    (returned wake id calls ++ pending wake id calls = arrived id calls ∧
      ∀ earlier call later, calls = earlier ++ call :: later →
        (step wake (final (step wake) new earlier) call).1 = some (id,.error .streamClosed) →
        .event (.channelClose id) ∈ earlier ∧ returned wake id earlier = arrived id earlier) ↔
    ∀ e ∈ trace (step wake) new calls, e.call = .event (.channelClose id) → e.before.inner.waiting id = [] := by
  simp only [← closes_iff]
  refine ⟨fun delivers => (lossless_iff wake id calls room).mp delivers.1,fun drained => ?_⟩
  refine ⟨(lossless_iff wake id calls room).mpr drained,?_⟩
  rintro earlier call later rfl reported
  rw [trace_append,List.forall_mem_append] at room drained
  obtain ⟨missing,known⟩ := step_streamClosed reported
  have whole := (lossless_iff wake id earlier room.1).mpr drained.1
  rw [pending,waiting,missing,Option.getD_none,List.append_nil] at whole
  refine ⟨?_,whole⟩
  rcases known_run wake id earlier known with queue | ⟨call',member,closing⟩
  · rw [missing] at queue
    cases queue
  · rwa [← closes_iff.mp closing]

end Streamhaul.WebRtcTransport

namespace Streamhaul.Transparent

def oneMessage : List (WebRtcTransport.Call Nat) :=
  [.event (.channelOpen 0 "5:0:1".toList),.acceptChannel,.event (.channelData 0 true [7])]

/-- One `recv` to its end, if it does not sleep. -/
def recvNow : List (WebRtcTransport.Call Nat) := [.recv 0,.run 0,.run 0]

end Streamhaul.Transparent

namespace Streamhaul.WebRtcTransport

open Machine Transparent

/-- A message that is read before the close is returned. -/
theorem read_then_closed :
    arrived 0 (oneMessage ++ recvNow ++ [.event (.channelClose 0)] ++ recvNow) = [[7]] ∧
    returned Notify.counting 0 (oneMessage ++ recvNow ++ [.event (.channelClose 0)] ++ recvNow) ++
      pending Notify.counting 0 (oneMessage ++ recvNow ++ [.event (.channelClose 0)] ++ recvNow) = [[7]] := by
  have all : arrived 0 (oneMessage ++ recvNow ++ [.event (.channelClose 0)] ++ recvNow) = [[7]] := by decide +kernel
  have delivers := (delivers_iff Notify.counting 0 (oneMessage ++ recvNow ++ [.event (.channelClose 0)] ++ recvNow)
    (by decide +kernel)).mpr
    (by decide +kernel)
  exact ⟨all,delivers.1.trans all⟩

/-- A message that still waits when the close is handled is gone: the channel is reported closed with nothing
returned. -/
theorem closed_then_lost :
    arrived 0 (oneMessage ++ [.event (.channelClose 0)] ++ recvNow) = [[7]] ∧
    returned Notify.counting 0 (oneMessage ++ [.event (.channelClose 0)] ++ recvNow) = [] ∧
    pending Notify.counting 0 (oneMessage ++ [.event (.channelClose 0)] ++ recvNow) = [] ∧
    (trace (step Notify.counting) new (oneMessage ++ [.event (.channelClose 0)] ++ recvNow)).getLast?.map Event.response =
      some (some (0,.error .streamClosed)) := by
  decide +kernel

end Streamhaul.WebRtcTransport
