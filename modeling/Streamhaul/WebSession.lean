import Streamhaul.WebClient

/-! The browser session controller. A call of init that finds no client is suspended at the
load of the bridge and is resumed after any other calls; every call comes with what the
browser, the loader and the listeners do during it. -/
namespace Streamhaul

open Machine

inductive ConnectionPhase where
  | idle
  | initializing
  | offering
  | connecting
  | connected
  | failed
  | closed
  deriving DecidableEq

structure SessionState where
  phase : ConnectionPhase
  iceState : String
  codec : Option String
  localFingerprint : Option String
  error : Option String
  deriving DecidableEq

/-- A constructed client and the operations asked of its peer connection so far. -/
structure ClientObject where
  client : WebClient
  operations : List BrowserOp
  deriving DecidableEq

namespace ClientObject

def new : ClientObject := ⟨WebClient.new,[]⟩

def close (object : ClientObject) : Except JsError WebReply × ClientObject :=
  match object.client.close with
  | (response,client) => (response.result,⟨client,object.operations ++ response.operations⟩)

def closed (object : ClientObject) : Bool := .close ∈ object.operations

@[simp] theorem closed_new : new.closed = false := rfl

@[simp] theorem closed_close (object : ClientObject) : object.close.2.closed = true := by
  simp [closed,close,WebClient.close]

end ClientObject

/-- What the loader, the browser and the listeners answer while a suspended init goes on:
the load itself, the peer connection of the new client, and the exception of a listener
told that the phase is idle or failed. -/
structure Completion where
  bridge : Except JsError Unit
  peerConnection : Except JsError Unit
  idle : Option JsError
  failed : Option JsError

/-- Clients are named by the order of their construction, suspended calls of init by the
order in which they were called. -/
structure Session where
  bridge : Bool
  client : Option Nat
  frameHandlerRegistered : Bool
  state : SessionState
  clients : List ClientObject
  inits : Nat
  suspended : List Nat
  deriving DecidableEq

inductive SessionCall where
  | init (listener : Option JsError)
  | resume (id : Nat) (completion : Completion)
  | dispose (listener : Option JsError)

inductive SessionResponse where
  | pending (id : Nat)
  | settled (result : Except JsError Unit)
  | notSuspended

namespace Session

def new : Session := ⟨false,none,false,⟨.idle,"new",none,none,none⟩,[],0,[]⟩

/-- The state is replaced before the listeners run; one of them may throw. -/
def set (s : Session) (patch : SessionState → SessionState) (listener : Option JsError) :
    Except JsError Unit × Session :=
  (listener.elim (.ok ()) .error,{ s with state := patch s.state })

/-- The part of init before its await. The first notification stands outside the try block. -/
def init (s : Session) (listener : Option JsError) : SessionResponse × Session :=
  if s.client.isSome then (.settled (.ok ()),s)
  else match s.set (fun state => { state with phase := .initializing, error := none }) listener with
    | (.error e,s) => (.settled (.error e),s)
    | (.ok (),s) => (.pending s.inits,{ s with inits := s.inits + 1, suspended := s.suspended ++ [s.inits] })

/-- The try block of init from its await on. -/
def afterLoad (s : Session) (completion : Completion) : Except JsError Unit × Session :=
  match completion.bridge with
  | .error e => (.error e,s)
  | .ok () =>
    if s.client.isSome then (.ok (),s)
    else
      let s := { s with bridge := true }
      match completion.peerConnection with
      | .error e => (.error e,s)
      | .ok () =>
        let s := { s with client := some s.clients.length, clients := s.clients ++ [ClientObject.new] }
        s.set (fun state => { state with phase := .idle }) completion.idle

/-- The part of init from its await on, with its catch block. -/
def resumeInit (s : Session) (completion : Completion) : Except JsError Unit × Session :=
  match s.afterLoad completion with
  | (.ok (),s) => (.ok (),s)
  | (.error e,s) =>
    match s.set (fun state => { state with phase := .failed, error := some e }) completion.failed with
    | (.error thrown,s) => (.error thrown,s)
    | (.ok (),s) => (.error e,s)

/-- An exception of the client's close is swallowed. -/
def closeClient (s : Session) : Session :=
  match s.client with
  | none => s
  | some i => { s with clients := s.clients.modify i (fun object => object.close.2) }

def dispose (s : Session) (listener : Option JsError) : Except JsError Unit × Session :=
  let s := { s.closeClient with client := none, frameHandlerRegistered := false }
  s.set (fun state => { state with phase := .closed, iceState := "closed", localFingerprint := none }) listener

def step (s : Session) : SessionCall → SessionResponse × Session
  | .init listener => s.init listener
  | .resume id completion =>
    if id ∈ s.suspended then
      match { s with suspended := s.suspended.erase id }.resumeInit completion with
      | (result,s) => (.settled result,s)
    else (.notSuspended,s)
  | .dispose listener =>
    match s.dispose listener with
    | (result,s) => (.settled result,s)

def isOpen (s : Session) (i : Nat) : Bool := s.clients[i]?.any (fun object => !object.closed)

def unclosed (s : Session) : Finset Nat := {i ∈ Finset.range s.clients.length | s.isOpen i}

def Constructs (s : Session) (id : Nat) (completion : Completion) : Prop :=
  id ∈ s.suspended ∧ s.client = none ∧ completion.bridge = .ok () ∧ completion.peerConnection = .ok ()

def Grows (s : Session) (call : SessionCall) : Prop := s.clients.length < (s.step call).2.clients.length

/-- A call of init is made and suspended under this number. -/
def CallsInit (s : Session) (calls : List SessionCall) (id : Nat) : Prop :=
  ∃ e ∈ trace step s calls, e.response = .pending id

/-- At every moment after a dispose, a client that is not closed comes after a construction by a
call of init made since that dispose. -/
def FreshAfterDispose (calls : List SessionCall) : Prop :=
  ∀ before listener later, (before ++ .dispose listener :: later) <+: calls →
    (final step new (before ++ .dispose listener :: later)).unclosed.Nonempty →
    ∃ front id completion back, later = front ++ .resume id completion :: back ∧
      (final step new (before ++ .dispose listener :: front)).Grows (.resume id completion) ∧
      CallsInit (final step new (before ++ [.dispose listener])) front id

/-- No call of init goes on to construct a client once dispose has been called after it. -/
def NoLateConstruction (calls : List SessionCall) : Prop :=
  ∀ before id completion after, calls = before ++ .resume id completion :: after →
    (final step new before).Constructs id completion →
    ∀ first listener rest, before = first ++ .dispose listener :: rest → ¬CallsInit new first id

variable {calls : List SessionCall} {completion : Completion} {id : Nat} {s : Session}

theorem isOpen_lt {i : Nat} (opened : s.isOpen i = true) : i < s.clients.length := by
  by_contra outside
  simp [isOpen,List.getElem?_eq_none (Nat.le_of_not_lt outside)] at opened

@[simp] theorem mem_unclosed {i : Nat} : i ∈ s.unclosed ↔ s.isOpen i = true := by
  simp only [unclosed,Finset.mem_filter,Finset.mem_range,and_iff_right_iff_imp]
  exact isOpen_lt

theorem resumeInit_clients (s : Session) (completion : Completion) :
    ((s.client = none ∧ completion.bridge = .ok () ∧ completion.peerConnection = .ok ()) ∧
      (s.resumeInit completion).2.client = some s.clients.length ∧
      (s.resumeInit completion).2.clients = s.clients ++ [ClientObject.new]) ∨
    (¬(s.client = none ∧ completion.bridge = .ok () ∧ completion.peerConnection = .ok ()) ∧
      (s.resumeInit completion).2.client = s.client ∧ (s.resumeInit completion).2.clients = s.clients) := by
  obtain ⟨load,peer,idle,failed⟩ := completion
  cases held : s.client <;> cases load <;> cases peer <;> cases idle <;> cases failed <;>
    simp [resumeInit,afterLoad,set,held]

theorem resumeInit_suspended (s : Session) (completion : Completion) :
    (s.resumeInit completion).2.inits = s.inits ∧ (s.resumeInit completion).2.suspended = s.suspended := by
  obtain ⟨load,peer,idle,failed⟩ := completion
  cases held : s.client <;> cases load <;> cases peer <;> cases idle <;> cases failed <;>
    simp [resumeInit,afterLoad,set,held]

theorem step_clients (s : Session) (call : SessionCall) :
    (∃ id completion, call = .resume id completion ∧ s.Constructs id completion ∧
      (s.step call).2.client = some s.clients.length ∧
      (s.step call).2.clients = s.clients ++ [ClientObject.new]) ∨
    (∃ listener, call = .dispose listener ∧ (s.step call).2.client = none ∧
      (s.step call).2.clients = s.closeClient.clients) ∨
    ((∀ id completion, call = .resume id completion → ¬s.Constructs id completion) ∧
      (s.step call).2.client = s.client ∧ (s.step call).2.clients = s.clients) := by
  cases call with
  | init listener =>
    refine .inr (.inr ⟨nofun,?_⟩)
    cases held : s.client <;> cases listener <;> simp [step,init,set,held]
  | resume id completion =>
    by_cases waiting : id ∈ s.suspended
    · rcases resumeInit_clients { s with suspended := s.suspended.erase id } completion with
        ⟨succeeds,client,clients⟩ | ⟨idle,client,clients⟩
      · refine .inl ⟨id,completion,rfl,⟨waiting,succeeds⟩,?_⟩
        simpa [step,waiting] using ⟨client,clients⟩
      · refine .inr (.inr ⟨?_,?_⟩)
        · rintro _ _ ⟨⟩ ⟨_,succeeds⟩
          exact idle succeeds
        · simpa [step,waiting] using ⟨client,clients⟩
    · refine .inr (.inr ⟨?_,?_⟩)
      · rintro _ _ ⟨⟩ ⟨suspended,_⟩
        exact waiting suspended
      · simp [step,waiting]
  | dispose listener => exact .inr (.inl ⟨listener,rfl,rfl,rfl⟩)

theorem step_suspended (s : Session) (call : SessionCall) :
    ((s.step call).1 = .pending s.inits ∧ (s.step call).2.inits = s.inits + 1 ∧
      (s.step call).2.suspended = s.suspended ++ [s.inits]) ∨
    ((∀ id, (s.step call).1 ≠ .pending id) ∧ (s.step call).2.inits = s.inits ∧
      (s.step call).2.suspended ⊆ s.suspended) := by
  cases call with
  | init listener => cases held : s.client <;> cases listener <;> simp [step,init,set,held]
  | resume id completion =>
    refine .inr ?_
    by_cases waiting : id ∈ s.suspended
    · obtain ⟨inits,suspended⟩ := resumeInit_suspended { s with suspended := s.suspended.erase id } completion
      simpa [step,waiting,inits,suspended] using List.erase_subset
    · simp [step,waiting]
  | dispose listener =>
    refine .inr ⟨nofun,?_⟩
    cases held : s.client <;> simp [step,dispose,closeClient,set,held]

theorem grows_iff :
    s.Grows (.resume id completion) ↔ s.Constructs id completion := by
  rcases s.step_clients (.resume id completion) with
    ⟨_,_,⟨⟩,constructs,_,clients⟩ | ⟨_,other,_⟩ | ⟨idle,_,clients⟩
  · simp [Grows,clients,constructs]
  · cases other
  · simp [Grows,clients,idle id completion rfl]

theorem isOpen_congr {s t : Session} (clients : t.clients = s.clients) (i : Nat) : t.isOpen i = s.isOpen i := by
  simp [isOpen,clients]

theorem isOpen_append {s t : Session} (clients : t.clients = s.clients ++ [ClientObject.new]) (i : Nat) :
    t.isOpen i = true ↔ s.isOpen i = true ∨ i = s.clients.length := by
  rcases Nat.lt_trichotomy i s.clients.length with inside | rfl | outside
  · simp [isOpen,clients,List.getElem?_append_left inside,inside.ne]
  · simp [isOpen,clients]
  · simp [isOpen,clients,List.getElem?_append_right outside.le,outside.le,outside.ne',Nat.sub_ne_zero_of_lt outside]

theorem isOpen_closeClient (s : Session) (i : Nat) :
    s.closeClient.isOpen i = true ↔ s.isOpen i = true ∧ s.client ≠ some i := by
  cases held : s.client with
  | none => simp [closeClient,held]
  | some j =>
    by_cases same : j = i
    · subst same
      cases object : s.clients[j]? <;> simp [isOpen,closeClient,held,object]
    · simp [isOpen,closeClient,held,same]

/-- The client that is not closed is the one the session holds. -/
def HeldOpen (s : Session) : Prop := ∀ i, s.isOpen i = true ↔ s.client = some i

theorem heldOpen_new : new.HeldOpen := by simp [HeldOpen,isOpen,new]

theorem heldOpen_step (s : Session) (call : SessionCall) (invariant : s.HeldOpen) : (s.step call).2.HeldOpen := by
  intro i
  rcases s.step_clients call with ⟨_,_,_,constructs,client,clients⟩ | ⟨_,_,client,clients⟩ | ⟨_,client,clients⟩
  · simp [isOpen_append clients,invariant i,client,constructs.2.1,eq_comm]
  · simp [isOpen_congr clients,isOpen_closeClient,invariant i,client]
  · rw [isOpen_congr clients,client]
    exact invariant i

theorem heldOpen_final (calls : List SessionCall) : (final step new calls).HeldOpen :=
  final_invariant step (fun _ _ => True) HeldOpen (fun s call _ => heldOpen_step s call) new calls heldOpen_new
    (fun _ _ => trivial)

theorem HeldOpen.card_le_one (invariant : s.HeldOpen) : s.unclosed.card ≤ 1 := by
  refine Finset.card_le_one.mpr (fun i first j second => ?_)
  simp only [mem_unclosed,invariant i,invariant j] at first second
  exact Option.some.inj (first.symm.trans second)

theorem HeldOpen.nonempty_iff (invariant : s.HeldOpen) : s.unclosed.Nonempty ↔ s.client ≠ none := by
  simp [Finset.Nonempty,invariant _,Option.ne_none_iff_exists']

/-- A session that comes to hold a client got it from a call of init that went on to construct it. -/
theorem exists_construction (empty : s.client = none) (held : (final step s calls).client ≠ none) :
    ∃ front id completion back, calls = front ++ .resume id completion :: back ∧
      (final step s front).Constructs id completion := by
  obtain ⟨front,call,back,rfl,before,after⟩ :=
    exists_switch step (fun s => s.client ≠ none) s calls (by simpa using empty) held
  rcases (final step s front).step_clients call with
    ⟨id,completion,rfl,constructs,_⟩ | ⟨_,_,client,_⟩ | ⟨_,client,_⟩
  · exact ⟨front,id,completion,back,rfl,constructs⟩
  · exact absurd client after
  · exact absurd (client ▸ after) before

def IsDispose (call : SessionCall) : Prop := ∃ listener, call = .dispose listener

/-- A client is given up by dispose only. -/
theorem held_of_no_dispose (held : s.client ≠ none)
    (quiet : ∀ call ∈ calls, ¬IsDispose call) : (final step s calls).client ≠ none := by
  intro lost
  obtain ⟨front,call,back,rfl,before,after⟩ := exists_switch step (fun s => s.client = none) s calls held lost
  rcases (final step s front).step_clients call with
    ⟨_,_,_,_,client,_⟩ | ⟨listener,disposes,_⟩ | ⟨_,client,_⟩
  · simp [client] at after
  · exact quiet call (by simp) ⟨listener,disposes⟩
  · exact before (client ▸ after)

theorem Constructs.held (constructs : s.Constructs id completion) :
    (s.step (.resume id completion)).2.client ≠ none := by
  rcases s.step_clients (.resume id completion) with ⟨_,_,_,_,client,_⟩ | ⟨_,other,_⟩ | ⟨idle,_⟩
  · simp [client]
  · cases other
  · exact absurd constructs (idle id completion rfl)

theorem not_constructs_of_empty {front back : List SessionCall}
    (quiet : ∀ call ∈ front ++ .resume id completion :: back, ¬IsDispose call)
    (empty : (final step s (front ++ .resume id completion :: back)).client = none) :
    ¬(final step s front).Constructs id completion := by
  intro constructs
  rw [final_append,final] at empty
  exact held_of_no_dispose constructs.held (fun call member => quiet call (by simp [member])) empty

theorem callsInit_cons {call : SessionCall} {rest : List SessionCall} :
    CallsInit s (call :: rest) id ↔ (s.step call).1 = .pending id ∨ CallsInit (s.step call).2 rest id := by
  simp [CallsInit,trace,fire]

theorem callsInit_append {first second : List SessionCall} :
    CallsInit s (first ++ second) id ↔ CallsInit s first id ∨ CallsInit (final step s first) second id := by
  simp [CallsInit,trace_append,or_and_right,exists_or]

theorem not_callsInit_dispose {listener : Option JsError} :
    ¬CallsInit s [.dispose listener] id := by
  simp [CallsInit,trace,fire,step]

theorem inits_le_final (s : Session) (calls : List SessionCall) : s.inits ≤ (final step s calls).inits := by
  refine final_invariant step (fun _ _ => True) (fun t => s.inits ≤ t.inits) (fun t call _ earlier => ?_) s calls
    le_rfl (fun _ _ => trivial)
  rcases t.step_suspended call with ⟨_,inits,_⟩ | ⟨_,inits,_⟩ <;> omega

theorem CallsInit.bounds (called : CallsInit s calls id) :
    s.inits ≤ id ∧ id < (final step s calls).inits := by
  induction calls generalizing s with
  | nil => simp [CallsInit,trace] at called
  | cons call rest ih =>
    have later := inits_le_final (s.step call).2 rest
    rw [final]
    rcases callsInit_cons.mp called with now | afterwards
    · rcases s.step_suspended call with ⟨pending,inits,_⟩ | ⟨other,_⟩
      · obtain rfl : s.inits = id := SessionResponse.pending.inj (pending.symm.trans now)
        omega
      · exact absurd now (other id)
    · obtain ⟨lower,upper⟩ := ih afterwards
      rcases s.step_suspended call with ⟨_,inits,_⟩ | ⟨_,inits,_⟩ <;> omega

theorem callsInit_of_suspended
    (waiting : id ∈ (final step s calls).suspended) : id ∈ s.suspended ∨ CallsInit s calls id := by
  induction calls generalizing s with
  | nil => exact .inl waiting
  | cons call rest ih =>
    rw [callsInit_cons]
    rcases ih waiting with now | later
    · rcases s.step_suspended call with ⟨pending,_,suspended⟩ | ⟨_,_,suspended⟩
      · rcases List.mem_append.mp (suspended ▸ now) with earlier | fresh
        · exact .inl earlier
        · rw [List.mem_singleton.mp fresh]
          exact .inr (.inl pending)
      · exact .inl (suspended now)
    · exact .inr (.inr later)

theorem called_before_or_after {before later : List SessionCall} {listener : Option JsError}
    (waiting : id ∈ (final step new (before ++ .dispose listener :: later)).suspended) :
    CallsInit new before id ∨ CallsInit (final step new (before ++ [.dispose listener])) later id := by
  rw [List.append_cons,final_append] at waiting
  rcases callsInit_of_suspended waiting with across | after
  · rcases callsInit_of_suspended across with initial | called
    · cases initial
    · rcases callsInit_append.mp called with before | here
      · exact .inl before
      · exact absurd here not_callsInit_dispose
  · exact .inr after

theorem not_called_twice {first second : List SessionCall} (before : CallsInit new first id) :
    ¬CallsInit (final step new first) second id := by
  intro after
  exact absurd before.bounds.2 (Nat.not_lt.mpr after.bounds.1)

theorem client_after_dispose (before : List SessionCall) (listener : Option JsError) :
    (final step new (before ++ [.dispose listener])).client = none := by
  rw [final_append]
  rfl

/-- A late construction leaves a client behind that no call of init since the last dispose can
account for: such a call would have constructed before, and its client would still be held. -/
theorem FreshAfterDispose.noLateConstruction (fresh : FreshAfterDispose calls) :
    NoLateConstruction calls := by
  rintro _ id completion after rfl constructs first listener rest rfl called
  obtain ⟨mid,_,back,cut,⟨last,rfl⟩,quiet⟩ :=
    exists_last_call IsDispose (.dispose listener :: rest) ⟨.dispose listener,List.mem_cons_self,listener,rfl⟩
  rw [cut,← List.append_assoc] at constructs fresh
  have early : CallsInit new (first ++ mid ++ [.dispose last]) id :=
    callsInit_append.mpr (.inl (callsInit_append.mpr (.inl called)))
  have held : (final step new (first ++ mid ++ .dispose last :: (back ++ [.resume id completion]))).client ≠ none := by
    rw [← List.cons_append,← List.append_assoc,final_append]
    exact constructs.held
  obtain ⟨front,id',completion',tail,split,grows,since⟩ :=
    fresh (first ++ mid) last (back ++ [.resume id completion]) ⟨after,by simp⟩
      ((heldOpen_final _).nonempty_iff.mpr held)
  -- The construction that accounts for the client is the late one itself, or an earlier one.
  rcases List.eq_nil_or_concat tail with rfl | ⟨inner,_,rfl⟩
  · obtain ⟨rfl,same⟩ := List.append_inj' split rfl
    cases same
    exact not_called_twice early since
  · rw [List.concat_eq_append,← List.cons_append,← List.append_assoc] at split
    obtain ⟨rfl,_⟩ := List.append_inj' split rfl
    have empty := constructs.2.1
    have earlier := grows_iff.mp grows
    rw [List.append_cons,final_append] at empty earlier
    exact not_constructs_of_empty quiet empty earlier

/-- A client held after a dispose was constructed since, by a call that was not late. -/
theorem NoLateConstruction.freshAfterDispose (noLate : NoLateConstruction calls) :
    FreshAfterDispose calls := by
  rintro before listener later ⟨rest,rfl⟩ nonempty
  have held := (heldOpen_final _).nonempty_iff.mp nonempty
  rw [List.append_cons,final_append] at held
  obtain ⟨front,id,completion,back,rfl,constructs⟩ :=
    exists_construction (client_after_dispose before listener) held
  rw [← final_append,← List.append_cons] at constructs
  refine ⟨front,id,completion,back,rfl,grows_iff.mpr constructs,?_⟩
  rcases called_before_or_after constructs.1 with early | since
  · exact absurd early (noLate _ id completion (back ++ rest) (by simp) constructs before listener front rfl)
  · exact since

/-- Who disposes only while no call of init is suspended gets a final teardown. -/
theorem freshAfterDispose_of_awaited (awaited : ∀ before listener after, calls = before ++ .dispose listener :: after →
      (final step new before).suspended = []) : FreshAfterDispose calls := by
  refine NoLateConstruction.freshAfterDispose ?_
  rintro _ id completion after rfl constructs first listener rest rfl called
  have settled := awaited first listener (rest ++ .resume id completion :: after) (by simp)
  have waiting := constructs.1
  rw [final_append] at waiting
  rcases callsInit_of_suspended waiting with across | since
  · simp [settled] at across
  · exact not_called_twice called since

/-- At any time at most one constructed client is not closed, and the session holds it. Whether
teardown is final besides depends on the loads: an init that was suspended before a dispose and
goes on after it constructs a client although no init was called since. -/
theorem teardown_final_iff (calls : List SessionCall) :
    ((final step new calls).unclosed.card ≤ 1 ∧
      ∀ i ∈ (final step new calls).unclosed, (final step new calls).client = some i) ∧
    (FreshAfterDispose calls ↔ NoLateConstruction calls) := by
  have invariant := heldOpen_final calls
  refine ⟨⟨invariant.card_le_one,fun i member => ?_⟩,?_⟩
  · exact (invariant i).mp (mem_unclosed.mp member)
  · exact ⟨FreshAfterDispose.noLateConstruction,NoLateConstruction.freshAfterDispose⟩

/-- The load of the first init ends after the session was disposed. -/
def lateLoad : List SessionCall :=
  [.init none,.dispose none,.resume 0 ⟨.ok (),.ok (),none,none⟩]

theorem late_load_revives :
    (final step new lateLoad).unclosed = {0} ∧ (final step new lateLoad).state.phase = .idle ∧
      ¬FreshAfterDispose lateLoad := by
  refine ⟨by decide,rfl,fun fresh => ?_⟩
  obtain ⟨front,_,_,_,split,_,called⟩ :=
    fresh [.init none] none [.resume 0 ⟨.ok (),.ok (),none,none⟩] List.prefix_rfl ⟨0,by decide⟩
  cases front with
  | nil => simp [CallsInit,trace] at called
  | cons first rest => simp at split

end Session
end Streamhaul
