import Streamhaul.ReliableChannel

/-! The receiving side of a reliable channel. The bytes that were read are, in this order, words, the part of a word
that is held and what was lost, whoever wrote them and however they arrive. -/
namespace Streamhaul.Quic

open ByteStream Delimited Machine

/-- The word that a reply stands for. -/
def readItem : Reply → Option Item
  | .received (.ok (some m)) => some (.message m)
  | .received (.error (.messageTooLarge len)) => some (.oversized len)
  | _ => none

def itemsRead (history : List Reply) : List Item := history.filterMap readItem

/-- The messages that `recv` returned. -/
def delivered (history : List Reply) : List Bytes := (itemsRead history).filterMap Item.payload?

@[simp] theorem itemsRead_concat (history : List Reply) (reply : Reply) :
    itemsRead (history ++ [reply]) = itemsRead history ++ (readItem reply).toList := filterMap_concat _ _ _

/-- Where the words that were read stand in the bytes that were read. -/
def Aligned (phase : RecvPhase) (items : List Item) (lost bytes : Bytes) : Prop :=
  match phase with
  | .opening got => items = [] ∧ lost = [] ∧ got = bytes
  | .header got => 2 ≤ bytes.length ∧ wire Item.code items ++ (got ++ lost) = bytes.drop 2
  | .payload len got => 2 ≤ bytes.length ∧ wire Item.code items ++ (toBeBytes 4 len ++ got ++ lost) = bytes.drop 2
  | .refused => items = []

theorem aligned_iff {phase : RecvPhase} {items : List Item} {lost bytes : Bytes} (inside : phase.InChannel) :
    Aligned phase items lost bytes ↔
      2 ≤ bytes.length ∧ wire Item.code items ++ (phase.held ++ lost) = bytes.drop 2 := by
  cases phase with
  | header got => rfl
  | payload len got => rfl
  | opening got => exact inside.elim
  | refused => exact inside.elim

namespace Aligned

variable {phase : RecvPhase} {items : List Item} {lost bytes : Bytes}

/-- Without a channel nothing is read. -/
theorem items_nil (aligned : Aligned phase items lost bytes) (outside : ¬phase.InChannel) : items = [] := by
  cases phase with
  | opening got => exact aligned.1
  | refused => exact aligned
  | header got => exact absurd trivial outside
  | payload len got => exact absurd trivial outside

theorem dropped (aligned : Aligned phase items lost bytes) (rest : phase.AtRest) :
    Aligned (Quic.dropped phase) items lost bytes := by
  cases phase with
  | opening got => exact aligned.1
  | header got =>
    obtain rfl := rest
    exact aligned
  | payload len got => exact rest.elim
  | refused => exact aligned

/-- Inside a channel, the bytes that are taken come behind what is held. -/
theorem take (aligned : Aligned phase items [] bytes) (inside : phase.InChannel) (taken : Bytes) :
    2 ≤ (bytes ++ taken).length ∧ wire Item.code items ++ (phase.held ++ taken) = (bytes ++ taken).drop 2 := by
  rw [aligned_iff inside,List.append_nil] at aligned
  rw [List.drop_append_of_le_length aligned.1,← aligned.2]
  exact ⟨by simp only [List.length_append]; omega,by simp⟩

end Aligned

theorem dropped_ok (phase : RecvPhase) : (dropped phase).Ok := by
  cases phase <;> simp [dropped,RecvPhase.Ok]

theorem dropped_held (phase : RecvPhase) : (dropped phase).held = [] := by
  cases phase <;> rfl

section Polls

variable {σ : Type} {v : View σ} {s s' : σ} {phase phase' : RecvPhase} {taken : Bytes} {reply : Reply}

/-- A poll takes words to what was read; bytes get lost only where it finds that the stream ends inside a word, or
fails. -/
theorem Polled.aligned (polled : Polled v s s' phase taken reply phase') {items : List Item} {bytes : Bytes}
    (aligned : Aligned phase items [] bytes) :
    ∃ lost, Aligned phase' (items ++ (readItem reply).toList) lost (bytes ++ taken) ∧
      (lost ≠ [] → phase'.held = [] ∧ (v.failed s' ∨
        (v.finished s ∧ v.read s' = v.written s') ∧ reply = .received (.error .streamClosed))) := by
  cases polled with
  | @accepted got taken spec size decoded =>
    obtain ⟨rfl,_,rfl⟩ := aligned
    exact ⟨[],⟨size.ge,by simp [readItem,← size]⟩,by simp⟩
  | refused => exact ⟨[],by simpa [Aligned,readItem] using aligned.1,by simp⟩
  | undecoded => exact ⟨[],by simpa [Aligned,readItem] using aligned.1,by simp⟩
  | unopened => exact ⟨[],by simpa [Aligned,readItem] using aligned.1,by simp⟩
  | opening short =>
    obtain ⟨rfl,_,rfl⟩ := aligned
    exact ⟨[],⟨rfl,rfl,rfl⟩,by simp⟩
  | message inside bound read =>
    have taken := aligned.take inside taken
    rw [read] at taken
    exact ⟨[],by simpa [Aligned,readItem] using taken,by simp⟩
  | oversized inside valid read =>
    have taken := aligned.take inside taken
    rw [read] at taken
    exact ⟨[],by simpa [Aligned,readItem] using taken,by simp⟩
  | pending inside ok inside' read =>
    have taken := aligned.take inside taken
    rw [read] at taken
    exact ⟨[],by rw [aligned_iff inside']; simpa [readItem] using taken,by simp⟩
  | eof => exact ⟨[],by simpa [Aligned,readItem] using aligned,by simp⟩
  | closed inside some_left unfinished finished all =>
    have taken := aligned.take inside taken
    exact ⟨_,by simpa [Aligned,readItem] using taken,fun _ => ⟨rfl,.inr ⟨⟨finished,all⟩,rfl⟩⟩⟩
  | failed inside reset fails =>
    have taken := aligned.take inside taken
    exact ⟨_,by simpa [Aligned,readItem] using taken,fun _ => ⟨rfl,.inl fails⟩⟩
  | idle => exact ⟨[],by simpa [Aligned,readItem] using aligned,by simp⟩

theorem Polled.aligned_spent (polled : Polled v s s' phase [] reply phase') {items : List Item} {lost bytes : Bytes}
    (aligned : Aligned phase items lost bytes) (some_lost : lost ≠ []) (empty : phase.held = []) :
    readItem reply = none ∧ Aligned phase' items lost bytes ∧ phase'.held = [] := by
  cases polled with
  | message inside bound read =>
    rw [empty] at read
    exact absurd read.symm (Item.code_ne_nil _)
  | oversized inside valid read =>
    rw [empty] at read
    exact absurd read.symm (Item.code_ne_nil _)
  | pending inside ok inside' read =>
    have empty' : phase'.held = [] := by rw [← read,empty]; rfl
    rw [aligned_iff inside,empty] at aligned
    exact ⟨rfl,by rwa [aligned_iff inside',empty'],empty'⟩
  | eof => exact ⟨rfl,aligned,rfl⟩
  | closed inside some_left => exact absurd (by rw [empty]; rfl) some_left
  | failed inside =>
    rw [aligned_iff inside,empty] at aligned
    exact ⟨rfl,aligned,rfl⟩
  | idle => exact ⟨rfl,aligned,rfl⟩
  | _ => exact absurd aligned.2.1 some_lost

theorem Polled.ok (polled : Polled v s s' phase taken reply phase') : phase'.Ok := by
  cases polled with
  | opening short => exact short
  | pending inside ok inside' split => exact ok
  | refused => trivial
  | undecoded => trivial
  | unopened => trivial
  | idle => trivial
  | _ => exact Nat.zero_lt_succ _

theorem Polled.inside (polled : Polled v s s' phase taken reply phase') (inside : phase.InChannel) :
    phase'.InChannel := by
  cases polled with
  | pending _ _ inside' _ => exact inside'
  | message => trivial
  | oversized => trivial
  | eof => trivial
  | closed => trivial
  | failed => trivial
  | accepted => trivial
  | _ => exact inside

theorem Polled.valid (polled : Polled v s s' phase taken reply phase') {i : Item} (read : readItem reply = some i) :
    i.Valid := by
  cases polled with
  | message inside bound split =>
    obtain rfl := Option.some.inj read
    exact bound
  | oversized inside valid split =>
    obtain rfl := Option.some.inj read
    exact valid
  | _ => cases read

/-- A clean end is found between two messages, when everything was read. -/
theorem Polled.boundary (polled : Polled v s s' phase taken (.received (.ok none)) phase') :
    phase = .header [] ∧ taken = [] ∧ v.finished s ∧ ¬v.failed s ∧ v.read s' = v.written s' := by
  cases polled with
  | eof finished alive all => exact ⟨rfl,rfl,finished,alive,all⟩

end Polls

theorem unfinished_empty : Unfinished Item.Valid Item.code [] := unfinished_nil (fun i _ => i.code_ne_nil)

/-- The receiving side of a stream, whoever wrote it; `lost` is what was read and thrown away. -/
structure Receiving {σ : Type} (v : View σ) (history : List Reply) (s : σ) (phase : RecvPhase) (lost : Bytes) :
    Prop where
  ok : phase.Ok
  read : ∀ i ∈ itemsRead history, i.Valid
  aligned : Aligned phase (itemsRead history) lost (v.read s)
  gone : lost ≠ [] → phase.held = [] ∧
    (v.failed s ∨ (v.finished s ∧ v.read s = v.written s) ∧ .received (.error .streamClosed) ∈ history)

namespace Receiving

variable {σ ν : Type} {v : View σ} {q : ByteStream σ ν} {history : List Reply} {s s' : σ} {phase : RecvPhase} {lost : Bytes}

theorem opened (lawful : Lawful v q) : Receiving v [] q.opened (.opening []) [] where
  ok := Nat.zero_lt_succ _
  read := by simp [itemsRead]
  aligned := by
    have nothing := lawful.ordered q.opened
    rw [lawful.opened.1] at nothing
    exact ⟨rfl,rfl,(List.prefix_nil.mp nothing).symm⟩
  gone := by simp

/-- A reply that reads nothing. -/
theorem quiet (receiving : Receiving v history s phase lost) (reply : Reply) (nothing : readItem reply = none) :
    Receiving v (history ++ [reply]) s phase lost where
  ok := receiving.ok
  read := by simpa [nothing] using receiving.read
  aligned := by simpa [nothing] using receiving.aligned
  gone some_lost := (receiving.gone some_lost).imp id (Or.imp id (And.imp id (List.mem_append_left _)))

theorem elsewhere (receiving : Receiving v history s phase lost) (step : Elsewhere v s s') :
    Receiving v history s' phase lost where
  ok := receiving.ok
  read := receiving.read
  aligned := by
    rw [step.read]
    exact receiving.aligned
  gone some_lost := by
    obtain ⟨held,why⟩ := receiving.gone some_lost
    refine ⟨held,why.imp step.failed ?_⟩
    rintro ⟨⟨finished,all⟩,closed⟩
    obtain ⟨finished',same⟩ := step.finished finished
    exact ⟨⟨finished',step.read.trans (all.trans same.symm)⟩,closed⟩

theorem dropped (receiving : Receiving v history s phase lost) (rest : phase.AtRest) :
    Receiving v history s (Quic.dropped phase) lost where
  ok := dropped_ok phase
  read := receiving.read
  aligned := receiving.aligned.dropped rest
  gone some_lost := ⟨dropped_held phase,(receiving.gone some_lost).2⟩

theorem spent (receiving : Receiving v history s phase lost) (some_lost : lost ≠ []) : Spent v s :=
  (receiving.gone some_lost).2.imp id And.left

theorem poll (receiving : Receiving v history s phase lost) (lawful : Lawful v q) :
    ∃ lost', Receiving v (history ++ [(Quic.poll q phase s).1]) (Quic.poll q phase s).2.2
      (Quic.poll q phase s).2.1 lost' := by
  obtain ⟨taken,took,polled⟩ := poll_spec lawful s receiving.ok
  generalize Quic.poll q phase s = out at took polled
  obtain ⟨reply,phase',s'⟩ := out
  have read : ∀ i ∈ itemsRead (history ++ [reply]), i.Valid := by
    intro i member
    simp only [itemsRead_concat,List.mem_append,Option.mem_toList] at member
    rcases member with earlier | now
    · exact receiving.read i earlier
    · exact polled.valid now
  by_cases some_lost : lost = []
  · obtain ⟨lost',aligned,why⟩ := polled.aligned (some_lost ▸ receiving.aligned)
    refine ⟨lost',polled.ok,read,by simpa [took.read] using aligned,?_⟩
    intro some_lost'
    obtain ⟨held,cause⟩ := why some_lost'
    refine ⟨held,cause.imp id ?_⟩
    rintro ⟨⟨finished,all⟩,rfl⟩
    exact ⟨⟨(took.toLater.finished finished).1,all⟩,by simp⟩
  · have nothing := (receiving.spent some_lost).takes_nothing lawful took
    subst nothing
    obtain ⟨unread,aligned,held⟩ := polled.aligned_spent receiving.aligned some_lost (receiving.gone some_lost).1
    refine ⟨lost,polled.ok,read,by simpa [unread,took.read] using aligned,fun _ => ⟨held,?_⟩⟩
    refine (receiving.gone some_lost).2.imp took.failed ?_
    rintro ⟨⟨finished,all⟩,closed⟩
    refine ⟨⟨(took.toLater.finished finished).1,?_⟩,List.mem_append_left _ closed⟩
    rw [took.read,List.append_nil,took.written,all]

/-- What was read begins the stream. -/
theorem read_wire (receiving : Receiving v history s phase lost) (lawful : Lawful v q) (inside : phase.InChannel) :
    2 ≤ (v.written s).length ∧ ∃ behind, wire Item.code (itemsRead history) ++ (phase.held ++ (lost ++ behind)) =
      (v.written s).drop 2 := by
  obtain ⟨size,bytes⟩ := (aligned_iff inside).mp receiving.aligned
  obtain ⟨behind,written⟩ := lawful.ordered s
  rw [← written,List.drop_append_of_le_length size,← bytes]
  exact ⟨by rw [List.length_append]; omega,behind,by simp⟩

end Receiving

/-! A hostile peer writes any bytes. What is read depends on the bytes alone, and not on how they arrive. -/

/-- The word in front of a buffer, read at once. -/
def nextItem (buffer : Bytes) : Option (Item × Bytes) :=
  if buffer.length < 4 then none
  else
    let len := fromBeBytes (buffer.take 4)
    if maxFrameLen < len then some (.oversized len,buffer.drop 4)
    else if (buffer.drop 4).length < len then none
    else some (.message ((buffer.drop 4).take len),(buffer.drop 4).drop len)

theorem nextItem_code {i : Item} (valid : i.Valid) (rest : Bytes) : nextItem (i.code ++ rest) = some (i,rest) := by
  have bound := Item.maxFrameLen_lt
  cases i with
  | message m =>
    have small : m.length ≤ maxFrameLen := valid
    have size := fromBeBytes_of_lt (small.trans_lt bound)
    simp [nextItem,Item.code,size,small]
  | oversized len =>
    obtain ⟨large,fits⟩ := valid
    have size := fromBeBytes_of_lt fits
    simp [nextItem,Item.code,size,large]

theorem reads_nextItem : Reads nextItem Item.Valid Item.code where
  proper i _ := i.code_ne_nil
  exactly buffer i rest := by
    constructor
    · intro found
      simp only [nextItem] at found
      by_cases short : buffer.length < 4
      · simp [short] at found
      · have size : (buffer.take 4).length = 4 := by
          rw [List.length_take]
          omega
        have digits : toBeBytes 4 (fromBeBytes (buffer.take 4)) = buffer.take 4 := by
          have same := toBeBytes_fromBeBytes (buffer.take 4)
          rwa [size] at same
        have small := fromBeBytes_lt (buffer.take 4)
        rw [size] at small
        by_cases large : maxFrameLen < fromBeBytes (buffer.take 4)
        · simp only [short,large,if_true,if_false,Option.some.injEq,Prod.mk.injEq] at found
          obtain ⟨rfl,rfl⟩ := found
          exact ⟨⟨large,small⟩,by rw [Item.code,digits,List.take_append_drop]⟩
        · by_cases lacking : (buffer.drop 4).length < fromBeBytes (buffer.take 4)
          · simp only [short,large,lacking,if_true,if_false,reduceCtorEq] at found
          · simp only [short,large,lacking,if_false,Option.some.injEq,Prod.mk.injEq] at found
            obtain ⟨rfl,rfl⟩ := found
            have taken : ((buffer.drop 4).take (fromBeBytes (buffer.take 4))).length = fromBeBytes (buffer.take 4) := by
              rw [List.length_take]
              omega
            refine ⟨?_,?_⟩
            · rw [Item.Valid,taken]
              omega
            · rw [Item.code,taken,digits,List.append_assoc,List.take_append_drop,List.take_append_drop]
    · rintro ⟨valid,rfl⟩
      exact nextItem_code valid rest

/-- The words of what follows the header of a channel. -/
def wordsOf (bytes : Bytes) : List Item := (drain nextItem (bytes.drop 2)).1

/-- A peer that writes what it likes, piece by piece, and the receiving side. -/
inductive PeerCall (ν : Type) where
  | write (buffer : Bytes)
  | close
  | network (event : ν)
  | poll
  | drop
  deriving DecidableEq

structure Reader (σ : Type) where
  stream : σ
  phase : RecvPhase

section Peer

variable {σ ν : Type} (q : ByteStream σ ν)

namespace Reader

def opened : Reader σ := ⟨q.opened,.opening []⟩

def step (reader : Reader σ) : PeerCall ν → Reply × Reader σ
  | .write buffer => (.idle,{ reader with stream := (q.writeAll buffer reader.stream).2 })
  | .close => (.idle,{ reader with stream := q.close reader.stream })
  | .network event => (.idle,{ reader with stream := q.network event reader.stream })
  | .poll =>
    let (reply,phase,stream) := Quic.poll q reader.phase reader.stream
    (reply,⟨stream,phase⟩)
  | .drop => (.idle,{ reader with phase := dropped reader.phase })

end Reader

def repliesTo (calls : List (PeerCall ν)) : List Reply :=
  (trace (Reader.step q) (Reader.opened q) calls).filterMap (fun e => some e.response)

/-- No `recv` is dropped inside a message. -/
def Received (reader : Reader σ) : PeerCall ν → Prop
  | .drop => reader.phase.AtRest
  | _ => True

end Peer

instance (phase : RecvPhase) : Decidable phase.AtRest := by
  unfold RecvPhase.AtRest
  split <;> infer_instance

instance {σ ν : Type} (reader : Reader σ) (call : PeerCall ν) : Decidable (Received reader call) := by
  unfold Received
  split <;> infer_instance

section Robustness

variable {σ ν : Type} {v : View σ} {q : ByteStream σ ν} {history : List Reply} {reader : Reader σ} {lost : Bytes}

/-- Every call of the peer, the network and the receiving side. -/
theorem Receiving.step (receiving : Receiving v history reader.stream reader.phase lost) (lawful : Lawful v q)
    (call : PeerCall ν) (received : Received reader call) :
    ∃ lost', Receiving v (history ++ [(reader.step q call).1]) (reader.step q call).2.stream
      (reader.step q call).2.phase lost' := by
  cases call with
  | write buffer => exact ⟨lost,(receiving.elsewhere (lawful.writing buffer _).1).quiet _ rfl⟩
  | close => exact ⟨lost,(receiving.elsewhere (lawful.closing _).1).quiet _ rfl⟩
  | network event => exact ⟨lost,(receiving.elsewhere (lawful.carrying event _).1).quiet _ rfl⟩
  | poll => exact receiving.poll lawful
  | drop => exact ⟨lost,(receiving.dropped received).quiet _ rfl⟩

/-- A clean end has been found, with nothing left over. -/
def Exhausted (v : View σ) (history : List Reply) (reader : Reader σ) : Prop :=
  .received (.ok none) ∈ history → .received (.error .streamClosed) ∉ history →
    reader.phase.InChannel ∧ v.finished reader.stream ∧
      wire Item.code (itemsRead history) = (v.written reader.stream).drop 2

theorem Reader.step_keeps (lawful : Lawful v q) (ok : reader.phase.Ok) (inside : reader.phase.InChannel)
    (call : PeerCall ν) : (reader.step q call).2.phase.InChannel ∧
      Later v reader.stream (reader.step q call).2.stream := by
  cases call with
  | write buffer => exact ⟨inside,(lawful.writing buffer _).1.toLater⟩
  | close => exact ⟨inside,(lawful.closing _).1.toLater⟩
  | network event => exact ⟨inside,(lawful.carrying event _).1.toLater⟩
  | poll =>
    obtain ⟨taken,took,polled⟩ := poll_spec lawful reader.stream ok
    exact ⟨polled.inside inside,took.toLater⟩
  | drop =>
    refine ⟨?_,.refl v reader.stream⟩
    simp only [Reader.step]
    cases state : reader.phase with
    | header got => trivial
    | payload len got => trivial
    | opening got => exact (state ▸ inside : (RecvPhase.opening got).InChannel).elim
    | refused => exact (state ▸ inside : RecvPhase.refused.InChannel).elim

theorem Reader.call_of_eof {call : PeerCall ν} (eof : (reader.step q call).1 = .received (.ok none)) : call = .poll := by
  cases call with
  | poll => rfl
  | _ => cases eof

theorem Receiving.exhausted {lost' : Bytes} (receiving : Receiving v history reader.stream reader.phase lost)
    (lawful : Lawful v q) (exhausted : Exhausted v history reader) (call : PeerCall ν)
    (after : Receiving v (history ++ [(reader.step q call).1]) (reader.step q call).2.stream
      (reader.step q call).2.phase lost') :
    Exhausted v (history ++ [(reader.step q call).1]) (reader.step q call).2 := by
  intro eof clean
  have earlier_clean : .received (.error .streamClosed) ∉ history :=
    fun member => clean (List.mem_append_left _ member)
  rcases List.mem_append.mp eof with earlier | now
  · obtain ⟨inside,finished,all⟩ := exhausted earlier earlier_clean
    obtain ⟨inside',later⟩ := Reader.step_keeps lawful receiving.ok inside call
    obtain ⟨finished',same⟩ := later.finished finished
    obtain ⟨_,behind,bytes⟩ := after.read_wire lawful inside'
    refine ⟨inside',finished',?_⟩
    rw [same,← all] at bytes
    simp only [itemsRead_concat,wire_append,same,← all] at bytes ⊢
    rw [List.append_assoc,List.append_right_eq_self,List.append_eq_nil_iff] at bytes
    rw [bytes.1,List.append_nil]
  · have replied := (List.mem_singleton.mp now).symm
    obtain rfl := Reader.call_of_eof replied
    obtain ⟨taken,took,polled⟩ := poll_spec lawful reader.stream receiving.ok
    have replied : (Quic.poll q reader.phase reader.stream).1 = .received (.ok none) := replied
    rw [replied] at polled
    obtain ⟨boundary,rfl,finished,alive,all⟩ := polled.boundary
    have inside : reader.phase.InChannel := boundary ▸ trivial
    have nothing : lost = [] := by
      by_contra some_lost
      rcases (receiving.gone some_lost).2 with failed | ⟨_,closed⟩
      · exact alive failed
      · exact earlier_clean closed
    have bytes := ((aligned_iff inside).mp receiving.aligned).2
    refine ⟨polled.inside inside,(took.toLater.finished finished).1,?_⟩
    simp only [Reader.step,replied,itemsRead_concat,readItem,Option.toList_none,List.append_nil]
    rw [← all,took.read,List.append_nil,← bytes,boundary,nothing]
    simp [RecvPhase.held]

/-- Whatever a peer writes and however it arrives, the words that were read are those that the stream begins
with; no more than one payload of the largest size is held; and a clean end, if no end inside a word was reported
before, is reported behind the last word. -/
structure Robust (v : View σ) (history : List Reply) (reader : Reader σ) : Prop where
  words : itemsRead history <+: wordsOf (v.written reader.stream)
  messages : ∀ m ∈ delivered history, m.length ≤ maxFrameLen
  buffered : reader.phase.held.length < maxFrameLen + 4
  complete : .received (.ok none) ∈ history → .received (.error .streamClosed) ∉ history →
    itemsRead history = wordsOf (v.written reader.stream) ∧
      wire Item.code (wordsOf (v.written reader.stream)) = (v.written reader.stream).drop 2

theorem held_length {phase : RecvPhase} (ok : phase.Ok) : phase.held.length < maxFrameLen + 4 := by
  cases phase with
  | opening got =>
    simp only [RecvPhase.Ok,RecvPhase.held] at ok ⊢
    omega
  | header got =>
    simp only [RecvPhase.Ok,RecvPhase.held,maxFrameLen] at ok ⊢
    omega
  | payload len got =>
    simp only [RecvPhase.Ok,RecvPhase.held,List.length_append,length_toBeBytes] at ok ⊢
    omega
  | refused => exact Nat.zero_lt_succ _

/-- Over every stream that keeps the laws, if no `recv` is dropped inside a message. -/
theorem channel_robust (lawful : Lawful v q) (calls : List (PeerCall ν))
    (received : ∀ e ∈ trace (Reader.step q) (Reader.opened q) calls, Received e.before e.call) :
    Robust v (repliesTo q calls) (final (Reader.step q) (Reader.opened q) calls) := by
  have books : (∃ lost, Receiving v (repliesTo q calls) (final (Reader.step q) (Reader.opened q) calls).stream
        (final (Reader.step q) (Reader.opened q) calls).phase lost) ∧
      Exhausted v (repliesTo q calls) (final (Reader.step q) (Reader.opened q) calls) := by
    refine history_invariant (Reader.step q) _ Received (fun history reader =>
      (∃ lost, Receiving v history reader.stream reader.phase lost) ∧ Exhausted v history reader) ?_ [] _ calls ?_
      received
    · rintro history reader call received ⟨⟨lost,receiving⟩,exhausted⟩
      obtain ⟨lost',after⟩ := receiving.step lawful call received
      exact ⟨⟨lost',after⟩,receiving.exhausted lawful exhausted call after⟩
    · refine ⟨⟨[],.opened lawful⟩,?_⟩
      intro eof
      simp at eof
  generalize final (Reader.step q) (Reader.opened q) calls = reader at books
  obtain ⟨⟨lost,receiving⟩,exhausted⟩ := books
  have drained := reads_nextItem.drainLoop_spec _ ((v.written reader.stream).drop 2) le_rfl
  have words : itemsRead (repliesTo q calls) <+: wordsOf (v.written reader.stream) := by
    by_cases inside : reader.phase.InChannel
    · obtain ⟨_,behind,whole⟩ := receiving.read_wire lawful inside
      rw [← drained.split] at whole
      exact isPrefix_of_wire Item.selfDelimiting receiving.read drained.ok drained.unfinished whole
    · rw [receiving.aligned.items_nil inside]
      exact List.nil_prefix
  refine ⟨words,?_,held_length receiving.ok,?_⟩
  · intro m member
    obtain ⟨i,read,payload⟩ := List.mem_filterMap.mp member
    have valid := receiving.read i read
    cases i with
    | message m' =>
      obtain rfl := Option.some.inj payload
      exact valid
    | oversized len => cases payload
  · intro eof clean
    have whole := (exhausted eof clean).2.2
    have same : wire Item.code (itemsRead (repliesTo q calls)) ++ [] = wire Item.code (wordsOf (v.written reader.stream)) ++
        (drain nextItem ((v.written reader.stream).drop 2)).2 := by
      rw [List.append_nil,whole]
      exact drained.split.symm
    have all := eq_of_wire Item.selfDelimiting receiving.read drained.ok unfinished_empty drained.unfinished same
    rw [all.1] at whole
    exact ⟨all.1,whole⟩

end Robustness

/-- One message in five chunks, and then a length above the limit, the end of which is missing. -/
def chunks : List (PeerCall Wire.Event) :=
  [.network (.credit 9),.write [5,1,0,0,0,1,7],.network (.arrive 1),.poll,.network (.arrive 3),.poll,.write [255,0],
    .network (.arrive 2),.poll,.network (.arrive 1),.poll,.close,.network (.arrive 9),.poll,.network .fin,.poll]

theorem channel_robust_of_chunks :
    Robust Wire.view (repliesTo Wire.stream chunks) (final (Reader.step Wire.stream) (Reader.opened Wire.stream) chunks) ∧
    itemsRead (repliesTo Wire.stream chunks) = [.message [7]] :=
  ⟨channel_robust Wire.lawful _ (by decide +kernel),by decide +kernel⟩

end Streamhaul.Quic
