import Streamhaul.ContentClassifier
import Streamhaul.Interleave
import Streamhaul.Semaphore

/-! Encoders that change their mode by building a second encoder, routing the frames to it and draining the
first. Every encoder holds a session slot of one limiter, and a change holds two for a while. The tasks that
own encoders interleave at every point where the limiter is used. -/
namespace Streamhaul.EncoderSwitch

/-- Encoding may keep the frame back, and flushing gives what was kept. -/
structure VideoEncoder (E F P ε : Type) where
  encode : E → F → Except ε (Option P) × E
  flush : E → Except ε (List P) × E
  requestKeyframe : E → E

structure SessionLimiter (Sem : Type) where
  semaphore : Sem
  maxSessions : UInt32

structure SessionGuard (Permit : Type) where
  permit : Permit

variable {E F P ε Config Sem Permit : Type}

namespace SessionLimiter

variable (sem : Semaphore Sem Permit)

def new (maxSessions : UInt32) : SessionLimiter Sem := ⟨sem.new maxSessions.toNat,maxSessions⟩

def tryAcquire (limiter : SessionLimiter Sem) : Option (SessionGuard Permit × SessionLimiter Sem) :=
  match sem.tryAcquireOwned limiter.semaphore with
  | some (permit,semaphore) => some (⟨permit⟩,{ limiter with semaphore := semaphore })
  | none => none

/-- A guard is dropped. -/
def release (limiter : SessionLimiter Sem) (guard : SessionGuard Permit) : SessionLimiter Sem :=
  { limiter with semaphore := sem.drop limiter.semaphore guard.permit }

def activeSessions (limiter : SessionLimiter Sem) : Nat :=
  limiter.maxSessions.toNat - sem.availablePermits limiter.semaphore % 2 ^ 32

end SessionLimiter

inductive ModeSwitchError (ε : Type) where
  | noSessionAvailable (limit active : Nat)
  | factoryError (e : ε)
  deriving DecidableEq

structure SwitchOutcome (P ε : Type) where
  tailPackets : List P
  flushError : Option ε
  deriving DecidableEq

structure DoubleBufferedEncoder (E Config Permit : Type) where
  active : E
  guard : SessionGuard Permit
  currentMode : ContentMode
  currentConfig : Config

/-- What a task is doing with its encoder. In `denied` no slot was free, and the count of the sessions for the
error is still to be taken. A task without an encoder may hold a slot for something else. -/
inductive Task (E P ε Config Permit : Type) where
  | absent
  | holding (guard : SessionGuard Permit)
  | building (guard : SessionGuard Permit) (config : Config) (mode : ContentMode)
  | denied (encoder : Option (DoubleBufferedEncoder E Config Permit))
  | idle (encoder : DoubleBufferedEncoder E Config Permit)
  | acquired (newGuard : SessionGuard Permit) (encoder : DoubleBufferedEncoder E Config Permit) (config : Config)
      (mode : ContentMode)
  | swapped (encoder : DoubleBufferedEncoder E Config Permit) (old : E) (oldGuard : SessionGuard Permit)
  | flushed (encoder : DoubleBufferedEncoder E Config Permit) (old : E) (oldGuard : SessionGuard Permit)
      (outcome : SwitchOutcome P ε)

/-- The calls of a task, and the points at which they go on: the factory returns, the old encoder is flushed
and dropped. -/
inductive Call (E F ε Config : Type) where
  | new (config : Config) (mode : ContentMode)
  | switchTo (config : Config) (mode : ContentMode)
  | report
  | built (answer : Except ε E)
  | flush
  | finish
  | encode (frame : F)
  | requestKeyframe
  | requestMode (mode : ContentMode)
  | acquire
  | drop
  deriving DecidableEq

inductive Reply (P ε : Type) where
  | constructed (result : Except (ModeSwitchError ε) Unit)
  | switched (result : Except (ModeSwitchError ε) (SwitchOutcome P ε))
  | encoded (result : Except ε (Option P))
  | none
  deriving DecidableEq

variable (ops : VideoEncoder E F P ε) (sem : Semaphore Sem Permit)

def own (limiter : SessionLimiter Sem) (task : Task E P ε Config Permit) (call : Call E F ε Config) :
    Reply P ε × SessionLimiter Sem × Task E P ε Config Permit :=
  match task,call with
  | .absent,.new config mode =>
    match limiter.tryAcquire sem with
    | some (guard,limiter) => (.none,limiter,.building guard config mode)
    | none => (.none,limiter,.denied none)
  | .denied none,.report =>
    (.constructed (.error (.noSessionAvailable limiter.maxSessions.toNat (limiter.activeSessions sem))),limiter,.absent)
  | .building guard config mode,.built (.ok e) => (.constructed (.ok ()),limiter,.idle ⟨e,guard,mode,config⟩)
  | .building guard _ _,.built (.error x) =>
    (.constructed (.error (.factoryError x)),limiter.release sem guard,.absent)
  | .idle encoder,.encode frame =>
    let (result,active) := ops.encode encoder.active frame
    (.encoded result,limiter,.idle { encoder with active := active })
  | .idle encoder,.requestKeyframe =>
    (.none,limiter,.idle { encoder with active := ops.requestKeyframe encoder.active })
  | .idle encoder,.requestMode mode => (.none,limiter,.idle { encoder with currentMode := mode })
  -- the new slot comes before the old encoder goes
  | .idle encoder,.switchTo config mode =>
    match limiter.tryAcquire sem with
    | some (newGuard,limiter) => (.none,limiter,.acquired newGuard encoder config mode)
    | none => (.none,limiter,.denied (some encoder))
  | .denied (some encoder),.report =>
    (.switched (.error (.noSessionAvailable limiter.maxSessions.toNat (limiter.activeSessions sem))),limiter,
      .idle encoder)
  | .acquired newGuard encoder config mode,.built (.ok e) =>
    (.none,limiter,.swapped ⟨ops.requestKeyframe e,newGuard,mode,config⟩ encoder.active encoder.guard)
  | .acquired newGuard encoder _ _,.built (.error x) =>
    (.switched (.error (.factoryError x)),limiter.release sem newGuard,.idle encoder)
  | .swapped encoder old oldGuard,.flush =>
    match ops.flush old with
    | (.ok packets,old) => (.none,limiter,.flushed encoder old oldGuard ⟨packets,none⟩)
    | (.error x,old) => (.none,limiter,.flushed encoder old oldGuard ⟨[],some x⟩)
  | .flushed encoder _ oldGuard outcome,.finish =>
    (.switched (.ok outcome),limiter.release sem oldGuard,.idle encoder)
  | .idle encoder,.drop => (.none,limiter.release sem encoder.guard,.absent)
  | .absent,.acquire =>
    match limiter.tryAcquire sem with
    | some (guard,limiter) => (.none,limiter,.holding guard)
    | none => (.none,limiter,.absent)
  | .holding guard,.drop => (.none,limiter.release sem guard,.absent)
  | task,_ => (.none,limiter,task)

/-- A change of a task, with what it does to the limiter. -/
inductive Move : SessionLimiter Sem → Task E P ε Config Permit → Call E F ε Config → Reply P ε →
    SessionLimiter Sem → Task E P ε Config Permit → Prop
  | reserve {l l' guard config mode} (got : l.tryAcquire sem = some (guard,l')) :
      Move l .absent (.new config mode) .none l' (.building guard config mode)
  | refuse {l config mode} : Move l .absent (.new config mode) .none l (.denied none)
  | refused {l} : Move l (.denied none) .report
      (.constructed (.error (.noSessionAvailable l.maxSessions.toNat (l.activeSessions sem)))) l .absent
  | construct {l guard config mode e} : Move l (.building guard config mode) (.built (.ok e))
      (.constructed (.ok ())) l (.idle ⟨e,guard,mode,config⟩)
  | unbuilt {l guard config mode x} : Move l (.building guard config mode) (.built (.error x))
      (.constructed (.error (.factoryError x))) (l.release sem guard) .absent
  | encode {l encoder frame result active} (encoded : ops.encode encoder.active frame = (result,active)) :
      Move l (.idle encoder) (.encode frame) (.encoded result) l (.idle { encoder with active := active })
  | keyframe {l encoder} : Move l (.idle encoder) .requestKeyframe .none l
      (.idle { encoder with active := ops.requestKeyframe encoder.active })
  | mode {l encoder mode} : Move l (.idle encoder) (.requestMode mode) .none l
      (.idle { encoder with currentMode := mode })
  | second {l l' newGuard encoder config mode} (got : l.tryAcquire sem = some (newGuard,l')) :
      Move l (.idle encoder) (.switchTo config mode) .none l' (.acquired newGuard encoder config mode)
  | deny {l encoder config mode} : Move l (.idle encoder) (.switchTo config mode) .none l (.denied (some encoder))
  | denied {l encoder} : Move l (.denied (some encoder)) .report
      (.switched (.error (.noSessionAvailable l.maxSessions.toNat (l.activeSessions sem)))) l (.idle encoder)
  | swap {l newGuard encoder config mode e} : Move l (.acquired newGuard encoder config mode) (.built (.ok e)) .none l
      (.swapped ⟨ops.requestKeyframe e,newGuard,mode,config⟩ encoder.active encoder.guard)
  | keep {l newGuard encoder config mode x} : Move l (.acquired newGuard encoder config mode) (.built (.error x))
      (.switched (.error (.factoryError x))) (l.release sem newGuard) (.idle encoder)
  | drained {l encoder old old' oldGuard packets} (flushed : ops.flush old = (.ok packets,old')) :
      Move l (.swapped encoder old oldGuard) .flush .none l (.flushed encoder old' oldGuard ⟨packets,none⟩)
  | undrained {l encoder old old' oldGuard x} (failed : ops.flush old = (.error x,old')) :
      Move l (.swapped encoder old oldGuard) .flush .none l (.flushed encoder old' oldGuard ⟨[],some x⟩)
  | finish {l encoder old oldGuard outcome} : Move l (.flushed encoder old oldGuard outcome) .finish
      (.switched (.ok outcome)) (l.release sem oldGuard) (.idle encoder)
  | discard {l encoder} : Move l (.idle encoder) .drop .none (l.release sem encoder.guard) .absent
  | take {l l' guard} (got : l.tryAcquire sem = some (guard,l')) : Move l .absent .acquire .none l' (.holding guard)
  | give {l guard} : Move l (.holding guard) .drop .none (l.release sem guard) .absent
  | stay {l task call} : Move l task call .none l task

theorem own_move (l : SessionLimiter Sem) (task : Task E P ε Config Permit) (call : Call E F ε Config) :
    Move ops sem l task call (own ops sem l task call).1 (own ops sem l task call).2.1
      (own ops sem l task call).2.2 := by
  unfold own
  split
  · cases got : l.tryAcquire sem with
    | some pair => exact .reserve got
    | none => exact .refuse
  · exact .refused
  · exact .construct
  · exact .unbuilt
  · exact .encode rfl
  · exact .keyframe
  · exact .mode
  · cases got : l.tryAcquire sem with
    | some pair => exact .second got
    | none => exact .deny
  · exact .denied
  · exact .swap
  · exact .keep
  · rename_i encoder old oldGuard
    rcases flushed : ops.flush old with ⟨x | packets,old'⟩
    · exact .undrained flushed
    · exact .drained flushed
  · exact .finish
  · exact .discard
  · cases got : l.tryAcquire sem with
    | some pair => exact .take got
    | none => exact .stay
  · exact .give
  · exact .stay

/-! Sessions. -/

/-- The encoders that live in a task, each with its guard. While a change is under way there are two. -/
def encodersOf : Task E P ε Config Permit → List (E × SessionGuard Permit)
  | .absent => []
  | .holding _ => []
  | .building _ _ _ => []
  | .denied none => []
  | .denied (some encoder) => [(encoder.active,encoder.guard)]
  | .idle encoder => [(encoder.active,encoder.guard)]
  | .acquired _ encoder _ _ => [(encoder.active,encoder.guard)]
  | .swapped encoder old oldGuard => [(encoder.active,encoder.guard),(old,oldGuard)]
  | .flushed encoder old oldGuard _ => [(encoder.active,encoder.guard),(old,oldGuard)]

/-- The guards of encoders that are still to be built, and those held for something else. -/
def reserved : Task E P ε Config Permit → List (SessionGuard Permit)
  | .holding guard => [guard]
  | .building guard _ _ => [guard]
  | .acquired newGuard _ _ _ => [newGuard]
  | _ => []

def permits (task : Task E P ε Config Permit) : List Permit :=
  (reserved task).map SessionGuard.permit ++ (encodersOf task).map (fun entry => entry.2.permit)

variable {ops} {sem}

/-- The permits that are out are exactly these, each of them once. -/
structure Lent (laws : sem.Lawful) (limiter : SessionLimiter Sem) (held : List Permit) : Prop where
  size : laws.size limiter.semaphore = limiter.maxSessions.toNat
  out : (laws.out limiter.semaphore).Perm held
  distinct : held.Nodup

section Lent

variable {laws : sem.Lawful} {l l' : SessionLimiter Sem} {held : List Permit} {guard : SessionGuard Permit}

theorem Lent.reorder (lent : Lent laws l held) {held' : List Permit} (same : held.Perm held') : Lent laws l held' :=
  ⟨lent.size,lent.out.trans same,same.nodup_iff.mp lent.distinct⟩

theorem Lent.acquire (lent : Lent laws l held) (got : l.tryAcquire sem = some (guard,l')) :
    Lent laws l' (guard.permit :: held) := by
  simp only [SessionLimiter.tryAcquire] at got
  split at got
  · next permit semaphore granted =>
    cases got
    obtain ⟨size,out,fresh⟩ := laws.granted _ _ _ granted
    refine ⟨size.trans lent.size,out.trans (lent.out.cons _),List.nodup_cons.mpr ⟨?_,lent.distinct⟩⟩
    exact fun member => fresh (lent.out.mem_iff.mpr member)
  · cases got

theorem Lent.release (lent : Lent laws l (guard.permit :: held)) : Lent laws (l.release sem guard) held :=
  ⟨(laws.dropped _ _ _ lent.out).1.trans lent.size,(laws.dropped _ _ _ lent.out).2,lent.distinct.of_cons⟩

theorem Lent.available (lent : Lent laws l held) :
    sem.availablePermits l.semaphore + held.length = l.maxSessions.toNat := by
  rw [← lent.out.length_eq,laws.counted,lent.size]

theorem Lent.activeSessions (lent : Lent laws l held) : l.activeSessions sem = held.length := by
  have free := lent.available
  have small := l.maxSessions.toNat_lt
  rw [SessionLimiter.activeSessions,Nat.mod_eq_of_lt (by omega)]
  omega

theorem Lent.tryAcquire_none (lent : Lent laws l held) :
    l.tryAcquire sem = none ↔ held.length = l.maxSessions.toNat := by
  have free := lent.available
  have refused := laws.refused l.semaphore
  simp only [SessionLimiter.tryAcquire]
  split
  · next granted =>
    rw [granted] at refused
    exact iff_of_false (by simp) (fun full => absurd (refused.mpr (by omega)) (by simp))
  · next none_left =>
    have empty := refused.mp none_left
    exact iff_of_true rfl (by omega)

end Lent

/-- A task takes and gives its permits one by one, beside whatever the others have. -/
theorem Move.lent {laws : sem.Lawful} {l l' : SessionLimiter Sem} {task task' : Task E P ε Config Permit}
    {call : Call E F ε Config} {reply : Reply P ε} (move : Move ops sem l task call reply l' task')
    {others : List Permit} (lent : Lent laws l (permits task ++ others)) : Lent laws l' (permits task' ++ others) := by
  cases move with
  | reserve got => exact lent.acquire got
  | second got => exact lent.acquire got
  | take got => exact lent.acquire got
  | unbuilt => exact lent.release
  | keep => exact lent.release
  | discard => exact lent.release
  | give => exact lent.release
  | finish => exact (lent.reorder (.swap _ _ _)).release
  | _ => exact lent

theorem Move.maxSessions {l l' : SessionLimiter Sem} {task task' : Task E P ε Config Permit}
    {call : Call E F ε Config} {reply : Reply P ε} (move : Move ops sem l task call reply l' task') :
    l'.maxSessions = l.maxSessions := by
  have acquired {guard : SessionGuard Permit} (got : l.tryAcquire sem = some (guard,l')) :
      l'.maxSessions = l.maxSessions := by
    simp only [SessionLimiter.tryAcquire] at got
    split at got <;> cases got
    rfl
  cases move with
  | reserve got => exact acquired got
  | second got => exact acquired got
  | take got => exact acquired got
  | _ => rfl

open Interleave

variable (ops sem)

/-- A limiter and tasks that have nothing yet. -/
def start (maxSessions : UInt32) (tasks : Nat) : System (SessionLimiter Sem) (Task E P ε Config Permit) :=
  ⟨.new sem maxSessions,List.replicate tasks .absent⟩

theorem maxSessions_final (maxSessions : UInt32) (tasks : Nat) (calls : List (Nat × Call E F ε Config)) :
    (Machine.final (step (own ops sem)) (start sem maxSessions tasks) calls).shared.maxSessions = maxSessions := by
  refine Machine.final_invariant (step (own ops sem)) (fun _ _ => True) (fun s => s.shared.maxSessions = maxSessions)
    ?_ _ calls rfl (by simp)
  intro s call _ kept
  cases here : s.parts[call.1]? with
  | none => rwa [step_none here]
  | some task =>
    rw [step_some here]
    exact (own_move ops sem s.shared task call.2).maxSessions.trans kept

variable {sem}

def encodersIn (s : System (SessionLimiter Sem) (Task E P ε Config Permit)) : List (E × SessionGuard Permit) :=
  s.parts.flatMap encodersOf

def reservedIn (s : System (SessionLimiter Sem) (Task E P ε Config Permit)) : List (SessionGuard Permit) :=
  s.parts.flatMap reserved

/-- The sessions of a process. The permits that are out are, each of them once, those of the guards that the
living encoders and the reservations hold; the limiter counts exactly these and refuses at the limit only. -/
structure Accounted (laws : sem.Lawful) (maxSessions : UInt32)
    (s : System (SessionLimiter Sem) (Task E P ε Config Permit)) : Prop where
  owned : (laws.out s.shared.semaphore).Perm
    ((reservedIn s).map SessionGuard.permit ++ (encodersIn s).map (fun entry => entry.2.permit))
  distinct : (laws.out s.shared.semaphore).Nodup
  counted : s.shared.activeSessions sem = (encodersIn s).length + (reservedIn s).length
  bounded : (encodersIn s).length + (reservedIn s).length ≤ maxSessions.toNat
  refused : s.shared.tryAcquire sem = none ↔ (encodersIn s).length + (reservedIn s).length = maxSessions.toNat

theorem permits_perm (tasks : List (Task E P ε Config Permit)) :
    (tasks.flatMap permits).Perm ((tasks.flatMap reserved).map SessionGuard.permit ++
      (tasks.flatMap encodersOf).map (fun entry => entry.2.permit)) := by
  simp only [List.map_flatMap]
  exact (List.flatMap_append_perm tasks _ _).symm

/-- In every interleaving of any number of tasks, over any semaphore that keeps its laws. -/
theorem sessions_accounted (laws : sem.Lawful) (maxSessions : UInt32) (tasks : Nat)
    (calls : List (Nat × Call E F ε Config)) :
    Accounted laws maxSessions (Machine.final (step (own ops sem)) (start sem maxSessions tasks) calls) := by
  have initial : Lent laws (start sem maxSessions tasks : System _ (Task E P ε Config Permit)).shared
      ((start sem maxSessions tasks).parts.flatMap (permits : Task E P ε Config Permit → List Permit)) := by
    have nobody : (List.replicate tasks (Task.absent : Task E P ε Config Permit)).flatMap permits = [] := by
      simp [permits,reserved,encodersOf]
    rw [start,nobody]
    exact ⟨(laws.created _).1,.of_eq (laws.created _).2,List.nodup_nil⟩
  have lent := owned_final permits (Lent laws) (fun _ _ _ same lent => lent.reorder same)
    (fun l task call others lent => (own_move ops sem l task call).lent lent) _ calls initial
  have limit := maxSessions_final ops sem maxSessions tasks calls
  generalize Machine.final (step (own ops sem)) (start sem maxSessions tasks) calls = s at lent limit
  have lent := lent.reorder (permits_perm s.parts)
  have total : ((reservedIn s).map SessionGuard.permit ++ (encodersIn s).map (fun entry => entry.2.permit)).length =
      (encodersIn s).length + (reservedIn s).length := by
    rw [List.length_append,List.length_map,List.length_map,Nat.add_comm]
  have free := lent.available
  rw [limit] at free
  refine ⟨lent.out,lent.out.nodup_iff.mpr lent.distinct,lent.activeSessions.trans total,?_,?_⟩
  · rw [← total]
    exact Nat.le.intro ((Nat.add_comm _ _).trans free)
  · rw [← total,← limit]
    exact lent.tryAcquire_none

/-! Frames. An encoder may hold frames back, but it gives those it has taken in the order in which it got them. It
may skip a frame, and the next one it takes after a request for a keyframe comes out as one. -/

/-- What an encoder promises, where names tell frames apart and packets carry them: the frames it has taken and
not given, with whether each is a keyframe; whether the next one will be; and whether it ever skips one. -/
structure Contract (ops : VideoEncoder E F P ε) (N : Type) where
  name : F → N
  label : P → N
  isKey : P → Bool
  queue : E → List (N × Bool)
  armed : E → Prop
  skips : Prop
  accepts : ∀ e frame out e', ops.encode e frame = (.ok out,e') →
    (∃ key, (armed e → key = true) ∧
      queue e ++ [(name frame,key)] = out.toList.map (fun p => (label p,isKey p)) ++ queue e') ∨
    skips ∧ out = none ∧ queue e' = queue e ∧ (armed e → armed e')
  rejects : ∀ e frame x e', ops.encode e frame = (.error x,e') → queue e' = queue e ∧ (armed e → armed e')
  requested : ∀ e, queue (ops.requestKeyframe e) = queue e ∧ armed (ops.requestKeyframe e)
  drains : ∀ e packets e', ops.flush e = (.ok packets,e') → packets.map (fun p => (label p,isKey p)) = queue e

/-- The frame that one entry of a history encodes. -/
def acceptedBy : Call E F ε Config × Reply P ε → List F
  | (.encode frame,.encoded (.ok _)) => [frame]
  | _ => []

def packetsOf : Reply P ε → List P
  | .encoded (.ok out) => out.toList
  | .switched (.ok outcome) => outcome.tailPackets
  | _ => []

def accepted (history : List (Call E F ε Config × Reply P ε)) : List F := history.flatMap acceptedBy

/-- The packets in the order in which the caller gets them. -/
def outputs (history : List (Call E F ε Config × Reply P ε)) : List P := history.flatMap (fun entry => packetsOf entry.2)

/-- The tail of an encoder is lost when it cannot be flushed. -/
def Lossy : Task E P ε Config Permit → Prop
  | .flushed _ _ _ outcome => outcome.flushError ≠ none
  | _ => False

def LosesTail : Reply P ε → Prop
  | .switched (.ok outcome) => outcome.flushError ≠ none
  | _ => False

instance [DecidableEq ε] (reply : Reply P ε) : Decidable (LosesTail reply) := by
  unfold LosesTail
  split <;> infer_instance

variable {ops} {N : Type} (c : Contract ops N)

def tagged (packets : List P) : List (N × Bool) := packets.map (fun p => (c.label p,c.isKey p))

theorem tagged_names (packets : List P) : (tagged c packets).map Prod.fst = packets.map c.label := by
  simp [tagged,Function.comp_def]

/-- What is still to come out of the encoders of a task. -/
def upcoming : Task E P ε Config Permit → List (N × Bool)
  | .denied (some encoder) => c.queue encoder.active
  | .idle encoder => c.queue encoder.active
  | .acquired _ encoder _ _ => c.queue encoder.active
  | .swapped encoder old _ => c.queue old ++ c.queue encoder.active
  | .flushed encoder _ _ outcome => tagged c outcome.tailPackets ++ c.queue encoder.active
  | _ => []

/-- The encoder that gets the next frame will make a keyframe of it. -/
def Armed : Task E P ε Config Permit → Prop
  | .denied (some encoder) => c.armed encoder.active
  | .idle encoder => c.armed encoder.active
  | .acquired _ encoder _ _ => c.armed encoder.active
  | .swapped encoder _ _ => c.armed encoder.active
  | .flushed encoder _ _ _ => c.armed encoder.active
  | _ => False

/-- Until a change of encoders is over, the new one has not got a frame. -/
def Primed : Task E P ε Config Permit → Prop
  | .swapped encoder _ _ => c.queue encoder.active = [] ∧ c.armed encoder.active
  | .flushed encoder _ _ _ => c.queue encoder.active = [] ∧ c.armed encoder.active
  | _ => True

/-- The factory gives encoders that have not seen a frame. -/
def Fresh (call : Call E F ε Config) : Prop := ∀ e, call = .built (.ok e) → c.queue e = []

/-- The frames, by their names, that the encoders behind a history have taken: all that were encoded without an
error, apart from some that were answered with nothing if the encoder skips. -/
inductive Taken : List (Call E F ε Config × Reply P ε) → List N → Prop
  | start : Taken [] []
  | took {history names} (entry) (earlier : Taken history names) :
      Taken (history ++ [entry]) (names ++ (acceptedBy entry).map c.name)
  | skipped {history names frame} (may : c.skips) (earlier : Taken history names) :
      Taken (history ++ [(.encode frame,.encoded (.ok none))]) names

/-- What an entry adds to the frames taken. -/
def Takes (entry : Call E F ε Config × Reply P ε) (new : List (N × Bool)) : Prop :=
  new.map Prod.fst = (acceptedBy entry).map c.name ∨
    c.skips ∧ new = [] ∧ ∃ frame, entry = (.encode frame,.encoded (.ok none))

theorem accepted_concat (history : List (Call E F ε Config × Reply P ε)) (entry : Call E F ε Config × Reply P ε) :
    accepted (history ++ [entry]) = accepted history ++ acceptedBy entry := by simp [accepted]

theorem outputs_concat (history : List (Call E F ε Config × Reply P ε)) (entry : Call E F ε Config × Reply P ε) :
    outputs (history ++ [entry]) = outputs history ++ packetsOf entry.2 := by simp [outputs]

theorem acceptedBy_none (call : Call E F ε Config) : acceptedBy (call,(.none : Reply P ε)) = [] := by
  cases call <;> rfl

variable {c}

theorem Taken.takes {history : List (Call E F ε Config × Reply P ε)} {names : List N} {new : List (N × Bool)}
    {entry : Call E F ε Config × Reply P ε} (taken : Taken c history names) (takes : Takes c entry new) :
    Taken c (history ++ [entry]) (names ++ new.map Prod.fst) := by
  rcases takes with all | ⟨may,rfl,frame,rfl⟩
  · rw [all]
    exact taken.took entry
  · simpa using taken.skipped may

theorem Taken.all {history : List (Call E F ε Config × Reply P ε)} {names : List N} (taken : Taken c history names)
    (never : ¬c.skips) : names = (accepted history).map c.name := by
  induction taken with
  | start => rfl
  | took entry earlier ih => rw [accepted_concat,List.map_append,ih]
  | skipped may => exact absurd may never

section Flow

variable {l l' : SessionLimiter Sem} {task task' : Task E P ε Config Permit} {call : Call E F ε Config}
  {reply : Reply P ε}

/-- Frames go in at one end and packets come out at the other. -/
theorem Move.flow (move : Move ops sem l task call reply l' task') (fresh : Fresh c call) (kept : call ≠ .drop)
    (complete : ¬Lossy task') :
    ∃ new : List (N × Bool), Takes c (call,reply) new ∧ (Armed c task → ∀ entry ∈ new, entry.2 = true) ∧
      (new = [] → Armed c task → Armed c task') ∧
      upcoming c task ++ new = tagged c (packetsOf reply) ++ upcoming c task' := by
  cases move with
  | @encode encoder frame result active encoded =>
    cases result with
    | ok out =>
      rcases c.accepts _ _ _ _ encoded with ⟨key,forced,queues⟩ | ⟨may,rfl,same,armed⟩
      · exact ⟨[(c.name frame,key)],.inl rfl,by simpa [Armed] using forced,by simp,queues⟩
      · refine ⟨[],.inr ⟨may,rfl,frame,rfl⟩,by simp,fun _ => armed,?_⟩
        simp [upcoming,same,packetsOf,tagged]
    | error x =>
      obtain ⟨same,armed⟩ := c.rejects _ _ _ _ encoded
      exact ⟨[],.inl rfl,by simp,fun _ => armed,by simp [upcoming,same,packetsOf,tagged]⟩
  | keyframe =>
    exact ⟨[],.inl rfl,by simp,fun _ _ => (c.requested _).2,by simp [upcoming,(c.requested _).1,packetsOf,tagged]⟩
  | swap =>
    refine ⟨[],.inl rfl,by simp,fun _ _ => (c.requested _).2,?_⟩
    simp [upcoming,(c.requested _).1,fresh _ rfl,packetsOf,tagged]
  | construct =>
    exact ⟨[],.inl rfl,by simp,fun _ armed => armed.elim,by simp [upcoming,fresh _ rfl,packetsOf,tagged]⟩
  | drained flushed =>
    exact ⟨[],.inl rfl,by simp,fun _ armed => armed,by simp [upcoming,packetsOf,tagged,c.drains _ _ _ flushed]⟩
  | undrained failed => exact absurd (by simp [Lossy]) complete
  | discard => exact absurd rfl kept
  | give => exact absurd rfl kept
  | stay =>
    refine ⟨[],.inl ?_,by simp,fun _ armed => armed,by simp [packetsOf,tagged]⟩
    rw [acceptedBy_none]
    rfl
  | _ => exact ⟨[],.inl rfl,by simp,fun _ armed => armed,by simp [upcoming,packetsOf,tagged]⟩

theorem Move.primed (move : Move ops sem l task call reply l' task') (fresh : Fresh c call) (primed : Primed c task) :
    Primed c task' := by
  cases move with
  | swap => exact ⟨(c.requested _).1.trans (fresh _ rfl),(c.requested _).2⟩
  | drained flushed => exact primed
  | undrained failed => exact primed
  | stay => exact primed
  | _ => trivial

/-- The next packet of a task will be a keyframe. -/
def KeyNext (c : Contract ops N) (task : Task E P ε Config Permit) : Prop :=
  (upcoming c task = [] ∧ Armed c task) ∨ ∃ name rest, upcoming c task = (name,true) :: rest

/-- It stays so until the packet comes. -/
theorem Move.keyNext (move : Move ops sem l task call reply l' task') (fresh : Fresh c call) (kept : call ≠ .drop)
    (complete : ¬Lossy task') (next : KeyNext c task) :
    match packetsOf reply with
    | [] => KeyNext c task'
    | p :: _ => c.isKey p = true := by
  obtain ⟨new,-,forced,armed',flow⟩ := move.flow fresh kept complete
  rcases next with ⟨empty,armed⟩ | ⟨name,rest,first⟩
  · rw [empty,List.nil_append] at flow
    cases out : packetsOf reply with
    | nil =>
      rw [out] at flow
      cases new with
      | nil => exact .inl ⟨flow.symm,armed' rfl armed⟩
      | cons entry more =>
        obtain ⟨name,key⟩ := entry
        obtain rfl : key = true := forced armed _ List.mem_cons_self
        exact .inr ⟨name,more,flow.symm⟩
    | cons p more =>
      rw [out] at flow
      exact forced armed (c.label p,c.isKey p) (by rw [flow]; exact List.mem_cons_self)
  · rw [first,List.cons_append] at flow
    cases out : packetsOf reply with
    | nil =>
      rw [out] at flow
      exact .inr ⟨name,rest ++ new,flow.symm⟩
    | cons p more =>
      rw [out] at flow
      have head := (List.cons.inj flow).1
      exact (congrArg Prod.snd head).symm

/-- A loss shows in the reply that ends the change of encoders. -/
theorem Move.not_lossy (move : Move ops sem l task call reply l' task') (complete : ¬Lossy task')
    (whole : ¬LosesTail reply) : ¬Lossy task := by
  cases move with
  | finish => exact whole
  | stay => exact complete
  | _ => exact id

end Flow

/-- No encoder was thrown away, and no tail was lost. -/
def Clean (history : List (Call E F ε Config × Reply P ε)) : Prop :=
  ∀ entry ∈ history, entry.1 ≠ .drop ∧ ¬LosesTail entry.2

/-- The packets of a task, and then what its encoders still hold, are the frames that were taken, once each and in
order; these are all frames, if the encoder does not skip; and the first packet after each change of encoders is a
keyframe. -/
structure GlitchFree (c : Contract ops N) (history : List (Call E F ε Config × Reply P ε))
    (task : Task E P ε Config Permit) : Prop where
  inOrder : Taken c history ((outputs history).map c.label ++ (upcoming c task).map Prod.fst)
  whole : ¬c.skips → (outputs history).map c.label ++ (upcoming c task).map Prod.fst = (accepted history).map c.name
  keyed : ∀ before call outcome after, history = before ++ (call,.switched (.ok outcome)) :: after →
    ∀ p, (outputs after).head? = some p → c.isKey p = true

/-- The same, with what is to come of a change after which there was no packet. -/
structure Streaming (c : Contract ops N) (history : List (Call E F ε Config × Reply P ε))
    (task : Task E P ε Config Permit) : Prop where
  inOrder : Taken c history ((outputs history).map c.label ++ (upcoming c task).map Prod.fst)
  keyed : ∀ before call outcome after, history = before ++ (call,.switched (.ok outcome)) :: after →
    match outputs after with
    | [] => KeyNext c task
    | p :: _ => c.isKey p = true

theorem Streaming.step {history : List (Call E F ε Config × Reply P ε)} {l l' : SessionLimiter Sem}
    {task task' : Task E P ε Config Permit} {call : Call E F ε Config} {reply : Reply P ε}
    (streaming : Streaming c history task) (move : Move ops sem l task call reply l' task') (fresh : Fresh c call)
    (primed : Primed c task) (kept : call ≠ .drop) (complete : ¬Lossy task') :
    Streaming c (history ++ [(call,reply)]) task' := by
  obtain ⟨new,takes,_,_,flow⟩ := move.flow fresh kept complete
  refine ⟨?_,?_⟩
  · have taken := streaming.inOrder.takes takes
    rw [List.append_assoc,← List.map_append,flow,List.map_append,tagged_names,← List.append_assoc,
      ← List.map_append] at taken
    rw [outputs_concat]
    exact taken
  · intro before changed outcome after split
    rcases List.eq_nil_or_concat after with rfl | ⟨earlier,last,rfl⟩
    · -- the change has just been made: its encoder is primed
      obtain ⟨_,entry⟩ := List.append_inj' split rfl
      obtain ⟨rfl,rfl⟩ := Prod.mk.inj (List.cons.inj entry).1
      cases move
      exact .inl primed
    · rw [List.concat_eq_append,← List.cons_append,← List.append_assoc] at split
      obtain ⟨rfl,entry⟩ := List.append_inj' split rfl
      obtain rfl := (List.cons.inj entry).1
      have known := streaming.keyed before changed outcome earlier rfl
      rw [List.concat_eq_append,outputs_concat]
      cases out : outputs earlier with
      | nil =>
        rw [out] at known
        exact move.keyNext fresh kept complete known
      | cons p more =>
        rw [out] at known
        exact known

/-- What holds of a task at the end of its history. -/
def Sound (c : Contract ops N) (history : List (Call E F ε Config × Reply P ε)) (task : Task E P ε Config Permit) :
    Prop :=
  Primed c task ∧ (Clean history → ¬Lossy task → Streaming c history task)

theorem Sound.step {history : List (Call E F ε Config × Reply P ε)} {task : Task E P ε Config Permit}
    (sound : Sound c history task) (l : SessionLimiter Sem) (call : Call E F ε Config) (fresh : Fresh c call) :
    Sound c (history ++ [(call,(own ops sem l task call).1)]) (own ops sem l task call).2.2 := by
  have move := own_move ops sem l task call
  refine ⟨move.primed fresh sound.1,?_⟩
  intro clean complete
  obtain ⟨kept,whole⟩ := clean _ (List.mem_append_right _ List.mem_cons_self)
  have streaming := sound.2 (fun entry member => clean entry (List.mem_append_left _ member)) (move.not_lossy complete whole)
  exact streaming.step move fresh sound.1 kept complete

/-- Over every interleaving of the tasks, whatever slots they get: encoders that keep the contract and come fresh
from the factory, and a task that has dropped none and reported no failed flush. Its stream has no gaps but the
frames that were skipped, and starts anew with a keyframe at every change. -/
theorem switch_glitch_free (maxSessions : UInt32) (tasks : Nat) (calls : List (Nat × Call E F ε Config))
    (fresh : ∀ call ∈ calls, Fresh c call.2) (i : Nat) (task : Task E P ε Config Permit)
    (here : (Machine.final (step (own ops sem)) (start sem maxSessions tasks) calls).parts[i]? = some task)
    (clean : Clean (historyOf (own ops sem) (start sem maxSessions tasks) calls i)) (complete : ¬Lossy task) :
    GlitchFree c (historyOf (own ops sem) (start sem maxSessions tasks) calls i) task := by
  have sound : Sound c (historyOf (own ops sem) (start sem maxSessions tasks) calls i) task := by
    refine part_history (Fresh c) (Sound c) ?_ _ calls ?_ fresh i task here
    · exact fun l task call history fresh sound => sound.step l call fresh
    · intro task member
      obtain rfl := (List.mem_replicate.mp member).2
      exact ⟨trivial,fun _ _ => ⟨.start,by simp⟩⟩
  have streaming := sound.2 clean complete
  refine ⟨streaming.inOrder,streaming.inOrder.all,?_⟩
  intro before call outcome after split p first
  have known := streaming.keyed before call outcome after split
  cases out : outputs after with
  | nil => simp [out] at first
  | cons q rest =>
    rw [out] at known first
    obtain rfl := Option.some.inj first
    exact known

/-- An encoder that holds one frame back. -/
structure Pipelined where
  held : Option (Nat × Bool)
  armed : Bool
  deriving DecidableEq

def pipelined : VideoEncoder Pipelined Nat (Nat × Bool) Unit where
  encode e frame := (.ok e.held,⟨some (frame,e.armed),false⟩)
  flush e := (.ok e.held.toList,{ e with held := none })
  requestKeyframe e := { e with armed := true }

def pipelinedContract : Contract pipelined Nat where
  name := id
  label := Prod.fst
  isKey := Prod.snd
  queue e := e.held.toList
  armed e := e.armed = true
  skips := False
  accepts := by
    rintro e frame out e' encoded
    obtain ⟨rfl,rfl⟩ : e.held = out ∧ _ = e' := by simpa [pipelined] using encoded
    exact .inl ⟨e.armed,id,by simp⟩
  rejects := by simp [pipelined]
  requested := by simp [pipelined]
  drains := by
    rintro e packets e' flushed
    obtain ⟨rfl,-⟩ : e.held.toList = packets ∧ _ := by simpa [pipelined] using flushed
    simp

/-- Two tasks, one of which changes its encoder while the other builds its own. -/
def twoTasks : List (Nat × Call Pipelined Nat Unit Unit) :=
  [(0,.new () .work),(0,.built (.ok ⟨none,false⟩)),(1,.new () .game),(0,.encode 1),(0,.encode 2),(0,.switchTo () .game),
    (1,.built (.ok ⟨none,false⟩)),(0,.built (.ok ⟨none,false⟩)),(1,.encode 9),(0,.flush),(0,.finish),(0,.encode 3),
    (0,.encode 4)]

/-- While the change is under way all three slots are taken. -/
theorem sessions_accounted_two :
    Accounted Semaphore.numberedLawful 3
      (Machine.final (step (own pipelined Semaphore.numbered)) (start Semaphore.numbered 3 2) (twoTasks.take 8)) ∧
    (Machine.final (step (own pipelined Semaphore.numbered)) (start Semaphore.numbered 3 2)
      (twoTasks.take 8)).shared.activeSessions Semaphore.numbered = 3 :=
  ⟨sessions_accounted pipelined Semaphore.numberedLawful 3 2 _,by decide +kernel⟩

theorem switch_glitch_free_two : ∃ task : Task Pipelined (Nat × Bool) Unit Unit Nat, GlitchFree pipelinedContract
      (historyOf (own pipelined Semaphore.numbered) (start Semaphore.numbered 3 2) twoTasks 0) task ∧
    outputs (historyOf (own pipelined Semaphore.numbered) (start Semaphore.numbered 3 2) twoTasks 0) =
      [(1,false),(2,false),(3,true)] := by
  refine ⟨_,switch_glitch_free (c := pipelinedContract) 3 2 twoTasks ?_ 0 _ rfl ?_ id,by decide +kernel⟩
  · intro call member e built
    have fresh : e = ⟨none,false⟩ := by
      simp only [twoTasks,List.mem_cons,List.not_mem_nil,or_false] at member
      rcases member with rfl | rfl | rfl | rfl | rfl | rfl | rfl | rfl | rfl | rfl | rfl | rfl | rfl <;> simp_all
    subst fresh
    rfl
  · unfold Clean
    decide +kernel

end Streamhaul.EncoderSwitch
