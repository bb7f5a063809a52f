import Streamhaul.Bytes

/-! One direction of a stream of bytes between two ends, as an asynchronous library offers it: futures that write a
buffer or read an exact number of bytes, and what the network does in between. The library is a parameter; what is
asked of it are the laws of `Lawful`. -/
namespace Streamhaul

/-- What a poll of `write_all` has come to; the future keeps what is left of its buffer. -/
inductive WriteAll where
  | ready
  | pending (left : Bytes)
  | failed
  deriving DecidableEq

/-- What a poll of `read_exact` has come to; the future keeps what it has got. -/
inductive ReadExact where
  | ready (bytes : Bytes)
  | pending (got : Bytes)
  | finishedEarly (got : Nat)
  | failed
  deriving DecidableEq

/-- The operations on a stream: a new one; a poll of `write_all` for what is left of a buffer; the end of the writing
half, when it is dropped; an event of the network; a poll of `read_exact` for a number of bytes, some of which it has
got. -/
structure ByteStream (σ ν : Type) where
  opened : σ
  writeAll : Bytes → σ → WriteAll × σ
  close : σ → σ
  network : ν → σ → σ
  readExact : Nat → Bytes → σ → ReadExact × σ

namespace ByteStream

variable {σ ν : Type}

/-- What a stream is known by: the bytes that were written and those that the reading end has taken; whether the
writing end has finished it; whether it was given up, and the reading end was told; whether everything has arrived. -/
structure View (σ : Type) where
  written : σ → Bytes
  read : σ → Bytes
  finished : σ → Prop
  reset : σ → Prop
  failed : σ → Prop
  arrived : σ → Prop

section Laws

variable (v : View σ)

/-- What no operation takes back. -/
structure Later (s s' : σ) : Prop where
  finished : v.finished s → v.finished s' ∧ v.written s' = v.written s
  reset : v.reset s → v.reset s'
  failed : v.failed s → v.failed s'

/-- A step away from the reading end. -/
structure Elsewhere (s s' : σ) : Prop extends Later v s s' where
  read : v.read s' = v.read s

/-- The reading end takes some bytes, which it cannot once it was told of a failure. -/
structure Took (s : σ) (taken : Bytes) (s' : σ) : Prop extends Later v s s' where
  read : v.read s' = v.read s ++ taken
  written : v.written s' = v.written s
  finishes : v.finished s' → v.finished s
  live : taken ≠ [] → ¬v.failed s

/-- A poll of `write_all` writes its buffer up to what is left of it. -/
inductive Writes (buffer : Bytes) (s s' : σ) : WriteAll → Prop
  | ready (all : v.written s' = v.written s ++ buffer) : Writes buffer s s' .ready
  | pending {taken left} (split : taken ++ left = buffer) (some_left : left ≠ [])
      (part : v.written s' = v.written s ++ taken) : Writes buffer s s' (.pending left)
  | failed {taken left} (split : taken ++ left = buffer) (some_left : left ≠ [])
      (part : v.written s' = v.written s ++ taken) : Writes buffer s s' .failed

/-- A poll of `read_exact` gets all it lacks or waits. It finds the end of the stream when that was finished and all
of it was read, and fails when it was given up. -/
inductive Reads (n : Nat) (got : Bytes) (s : σ) (taken : Bytes) (s' : σ) : ReadExact → Prop
  | ready (size : (got ++ taken).length = n) : Reads n got s taken s' (.ready (got ++ taken))
  | pending (short : (got ++ taken).length < n) : Reads n got s taken s' (.pending (got ++ taken))
  | finishedEarly (short : (got ++ taken).length < n) (finished : v.finished s) (alive : ¬v.failed s)
      (all : v.read s' = v.written s') :
      Reads n got s taken s' (.finishedEarly (got ++ taken).length)
  | failed (reset : v.reset s') (fails : v.failed s') : Reads n got s taken s' .failed

/-- The laws: bytes are read in the order in which they were written, once each; they arrive when the stream was
finished, unless it is given up; and then a read does not wait. -/
structure Lawful (q : ByteStream σ ν) : Prop where
  opened : v.written q.opened = [] ∧ ¬v.finished q.opened
  ordered : ∀ s, v.read s <+: v.written s
  writes : ∀ buffer s, Writes v buffer s (q.writeAll buffer s).2 (q.writeAll buffer s).1
  writing : ∀ buffer s, Elsewhere v s (q.writeAll buffer s).2 ∧ (v.finished (q.writeAll buffer s).2 → v.finished s)
  closing : ∀ s, Elsewhere v s (q.close s) ∧ v.written (q.close s) = v.written s
  closed : ∀ s, v.finished (q.close s) ∨ v.reset (q.close s)
  carrying : ∀ event s, Elsewhere v s (q.network event s) ∧ v.written (q.network event s) = v.written s ∧
    (v.finished (q.network event s) → v.finished s)
  reads : ∀ n got s, got.length ≤ n → ∃ taken, Took v s taken (q.readExact n got s).2 ∧
    Reads v n got s taken (q.readExact n got s).2 (q.readExact n got s).1
  arrives : ∀ s, v.finished s → ¬v.reset s →
    ∃ events : List ν, v.arrived (events.foldl (fun s event => q.network event s) s)
  arrived : ∀ s, v.arrived s → v.finished s ∧ ¬v.reset s
  settled : ∀ n got s, v.arrived s → got.length ≤ n → v.arrived (q.readExact n got s).2 ∧
    ∀ more, (q.readExact n got s).1 ≠ .pending more

end Laws

section Rules

variable {v : View σ} {q : ByteStream σ ν} {s s' s'' : σ} {taken taken' : Bytes}

theorem Later.refl (v : View σ) (s : σ) : Later v s s := ⟨fun now => ⟨now,rfl⟩,id,id⟩

theorem Later.trans (first : Later v s s') (second : Later v s' s'') : Later v s s'' where
  finished now :=
    have next := first.finished now
    ⟨(second.finished next.1).1,(second.finished next.1).2.trans next.2⟩
  reset now := second.reset (first.reset now)
  failed now := second.failed (first.failed now)

theorem Took.refl (v : View σ) (s : σ) : Took v s [] s where
  toLater := .refl v s
  read := (List.append_nil _).symm
  written := rfl
  finishes := id
  live none_taken := absurd rfl none_taken

theorem Took.trans (first : Took v s taken s') (second : Took v s' taken' s'') : Took v s (taken ++ taken') s'' where
  toLater := first.toLater.trans second.toLater
  read := by rw [second.read,first.read,List.append_assoc]
  written := second.written.trans first.written
  finishes now := first.finishes (second.finishes now)
  live some_taken failed := by
    by_cases early : taken = []
    · subst early
      exact second.live some_taken (first.failed failed)
    · exact first.live early failed

/-- Nothing more can be read: the reading end was told of a failure, or has read all of a finished stream. -/
def Spent (v : View σ) (s : σ) : Prop := v.failed s ∨ v.finished s ∧ v.read s = v.written s

theorem Spent.takes_nothing (spent : Spent v s) (lawful : Lawful v q) (took : Took v s taken s') : taken = [] := by
  rcases spent with failed | ⟨_,all⟩
  · by_contra some_taken
    exact took.live some_taken failed
  · have ordered := lawful.ordered s'
    rw [took.read,took.written,← all] at ordered
    have size := ordered.length_le
    rw [List.length_append] at size
    exact List.length_eq_zero_iff.mp (by omega)

end Rules

/-! A stream that keeps the laws: bytes in flight arrive in portions, and the writing end has a credit. -/

inductive Ending where
  | running | finished | reset | failed
  deriving DecidableEq

structure Wire where
  read : Bytes
  ready : Bytes
  flight : Bytes
  credit : Nat
  closed : Bool
  ending : Ending
  deriving DecidableEq

namespace Wire

inductive Event where
  | credit (n : Nat)
  | arrive (n : Nat)
  | fin
  | reset (keep : Nat)
  deriving DecidableEq

def Broken (w : Wire) : Prop := w.ending = .reset ∨ w.ending = .failed

instance (w : Wire) : Decidable w.Broken := inferInstanceAs (Decidable (_ ∨ _))

/-- Everything has arrived, and the end of the stream too. -/
def Complete (w : Wire) : Prop := w.closed = true ∧ w.ending = .finished ∧ w.flight = []

instance (w : Wire) : Decidable w.Complete := inferInstanceAs (Decidable (_ ∧ _))

def view : View Wire where
  written w := w.read ++ (w.ready ++ w.flight)
  read w := w.read
  finished w := w.closed = true
  reset w := w.Broken
  failed w := w.ending = .failed
  arrived w := w.Complete

def writeAll (buffer : Bytes) (w : Wire) : WriteAll × Wire :=
  if w.closed then (if buffer = [] then .ready else .failed,w)
  else
    let w' := { w with flight := w.flight ++ buffer.take w.credit, credit := w.credit - buffer.length }
    (if buffer.length ≤ w.credit then .ready else .pending (buffer.drop w.credit),w')

def network (event : Event) (w : Wire) : Wire :=
  match event with
  | .credit n => { w with credit := w.credit + n }
  | .arrive n => if w.Broken then w else { w with ready := w.ready ++ w.flight.take n, flight := w.flight.drop n }
  | .fin => if w.Broken ∨ w.closed = false ∨ w.flight ≠ [] then w else { w with ending := .finished }
  | .reset keep => if w.Broken then w else { w with
      ready := w.ready.take keep
      flight := w.ready.drop keep ++ w.flight
      ending := .reset }

def readExact (n : Nat) (got : Bytes) (w : Wire) : ReadExact × Wire :=
  let size := if w.ending = .failed then 0 else n - got.length
  let taken := w.ready.take size
  let w' := { w with read := w.read ++ taken, ready := w.ready.drop size }
  if (got ++ taken).length = n then (.ready (got ++ taken),w')
  else if w.Broken then (.failed,{ w' with ending := .failed })
  else if w.Complete then (.finishedEarly (got ++ taken).length,w')
  else (.pending (got ++ taken),w')

def stream : ByteStream Wire Event where
  opened := ⟨[],[],[],0,false,.running⟩
  writeAll := writeAll
  close w := { w with closed := true }
  network := network
  readExact := readExact

theorem elsewhere_writeAll (buffer : Bytes) (w : Wire) : Elsewhere view w (writeAll buffer w).2 := by
  by_cases closed : w.closed = true
  · simp only [writeAll,closed,if_true]
    exact ⟨⟨fun finished => ⟨finished,rfl⟩,id,id⟩,rfl⟩
  · simp only [writeAll,closed]
    exact ⟨⟨fun finished => absurd finished closed,id,id⟩,rfl⟩

theorem writes_writeAll (buffer : Bytes) (w : Wire) : Writes view buffer w (writeAll buffer w).2 (writeAll buffer w).1 := by
  by_cases closed : w.closed = true
  · simp only [writeAll,closed,if_true]
    by_cases empty : buffer = []
    · simp only [empty,if_true]
      exact .ready (List.append_nil _).symm
    · simp only [empty,if_false]
      exact .failed (List.nil_append _) empty (List.append_nil _).symm
  · simp only [writeAll,closed]
    by_cases enough : buffer.length ≤ w.credit
    · simp only [enough,if_true]
      exact .ready (by simp [view,List.take_of_length_le enough])
    · simp only [enough,if_false]
      refine .pending (List.take_append_drop w.credit buffer) ?_ (by simp [view])
      rw [ne_eq,List.drop_eq_nil_iff]
      exact enough

/-- The network changes neither the bytes nor what the two ends have done, and does not mend a broken stream. -/
theorem network_keeps (event : Event) (w : Wire) : view.written (network event w) = view.written w ∧
    (network event w).read = w.read ∧ (network event w).closed = w.closed ∧
    (w.Broken → (network event w).ending = w.ending) := by
  cases event with
  | credit n => exact ⟨rfl,rfl,rfl,fun _ => rfl⟩
  | arrive n =>
    simp only [network]
    split
    · exact ⟨rfl,rfl,rfl,fun _ => rfl⟩
    · exact ⟨by simp [view],rfl,rfl,fun _ => rfl⟩
  | fin =>
    simp only [network]
    split
    · exact ⟨rfl,rfl,rfl,fun _ => rfl⟩
    · exact ⟨rfl,rfl,rfl,by tauto⟩
  | reset keep =>
    simp only [network]
    split
    · exact ⟨rfl,rfl,rfl,fun _ => rfl⟩
    · exact ⟨by simp [view,← List.append_assoc (w.ready.take keep)],rfl,rfl,by tauto⟩

theorem elsewhere_network (event : Event) (w : Wire) : Elsewhere view w (network event w) := by
  obtain ⟨written,read,closed,ending⟩ := network_keeps event w
  refine ⟨⟨fun finished => ⟨closed.trans finished,written⟩,?_,?_⟩,read⟩
  · intro broken
    have same := ending broken
    exact broken.imp same.trans same.trans
  · exact fun failed => (ending (.inr failed)).trans failed

theorem arrives (w : Wire) (closed : w.closed = true) (alive : ¬w.Broken) :
    (network .fin (network (.arrive w.flight.length) w)).Complete := by
  have moved : network (.arrive w.flight.length) w = { w with ready := w.ready ++ w.flight, flight := [] } := by
    simp [network,alive]
  rw [moved]
  generalize still : ({ w with ready := w.ready ++ w.flight, flight := [] } : Wire) = w'
  have alive' : ¬w'.Broken := still ▸ alive
  have closed' : w'.closed = true := still ▸ closed
  have empty : w'.flight = [] := still ▸ rfl
  have ended : network .fin w' = { w' with ending := .finished } := by simp [network,alive',closed',empty]
  rw [ended]
  exact ⟨closed',rfl,empty⟩

section Read

variable (n : Nat) (got : Bytes) (w : Wire)

theorem readExact_complete (complete : w.Complete) : (readExact n got w).2.Complete ∧
    ∀ more, (readExact n got w).1 ≠ .pending more := by
  obtain ⟨closed,finished,empty⟩ := complete
  have alive : ¬w.Broken := by simp [Broken,finished]
  have complete : w.Complete := ⟨closed,finished,empty⟩
  simp only [readExact,alive,complete,if_true,if_false]
  generalize (if w.ending = .failed then 0 else n - got.length) = size
  split <;> exact ⟨⟨closed,finished,empty⟩,by simp⟩

theorem readExact_reads (room : got.length ≤ n) :
    ∃ taken, Took view w taken (readExact n got w).2 ∧
      Reads view n got w taken (readExact n got w).2 (readExact n got w).1 := by
  simp only [readExact]
  set size := if w.ending = .failed then 0 else n - got.length with bound
  have within : (got ++ w.ready.take size).length ≤ n := by
    rw [List.length_append,List.length_take]
    split at bound <;> omega
  have moved : w.read ++ w.ready.take size ++ (w.ready.drop size ++ w.flight) = w.read ++ (w.ready ++ w.flight) := by
    rw [List.append_assoc,← List.append_assoc (w.ready.take size),List.take_append_drop]
  have took (ending : Ending) (reset : w.Broken → ending = .reset ∨ ending = .failed)
      (failed : w.ending = .failed → ending = .failed) : Took view w (w.ready.take size)
      { w with read := w.read ++ w.ready.take size, ready := w.ready.drop size, ending := ending } :=
    { finished := fun finished => ⟨finished,moved⟩
      reset := reset
      failed := failed
      read := rfl
      written := moved
      finishes := id
      live := by
        intro some_taken failed
        rw [if_pos (show w.ending = .failed from failed)] at bound
        simp [bound] at some_taken }
  by_cases enough : (got ++ w.ready.take size).length = n
  · rw [if_pos enough]
    exact ⟨_,took w.ending id id,.ready enough⟩
  have short := lt_of_le_of_ne within enough
  rw [if_neg enough]
  by_cases broken : w.Broken
  · rw [if_pos broken]
    exact ⟨_,took .failed (fun _ => .inr rfl) (fun _ => rfl),.failed (.inr rfl) rfl⟩
  rw [if_neg broken]
  by_cases complete : w.Complete
  · rw [if_pos complete]
    have alive : w.ending ≠ .failed := fun failed => broken (.inr failed)
    refine ⟨_,took w.ending id id,.finishedEarly short complete.1 alive ?_⟩
    have all : w.ready.drop size = [] := by
      rw [if_neg alive] at bound
      rw [List.length_append,List.length_take] at short
      exact List.drop_of_length_le (by omega)
    simp [view,all,complete.2.2]
  · rw [if_neg complete]
    exact ⟨_,took w.ending id id,.pending short⟩

end Read

theorem lawful : Lawful view stream where
  opened := ⟨rfl,by simp [view,stream]⟩
  ordered w := List.prefix_append _ _
  writes := writes_writeAll
  writing buffer w := by
    refine ⟨elsewhere_writeAll buffer w,?_⟩
    simp only [stream,writeAll]
    split <;> exact id
  closing w := ⟨⟨⟨fun _ => ⟨rfl,rfl⟩,id,id⟩,rfl⟩,rfl⟩
  closed w := .inl rfl
  carrying event w := by
    obtain ⟨written,_,closed,_⟩ := network_keeps event w
    exact ⟨elsewhere_network event w,written,closed.symm.trans⟩
  reads n got w := readExact_reads n got w
  arrives w closed alive := ⟨[.arrive w.flight.length,.fin],arrives w closed alive⟩
  arrived w complete := ⟨complete.1,by simp [view,Broken,complete.2.1]⟩
  settled n got w complete _ := readExact_complete n got w complete

end Wire

end ByteStream

end Streamhaul
