import Streamhaul.InputInjector
import Streamhaul.Machine

/-! Input of a session: inbound messages are admitted against a mirror of the button mask and put
into a bounded queue, the injection thread takes them out, and at the end the thread drains the
queue and releases what is held. The mirror is the mask that the injector will hold when the queue
is drained, so no button gets stuck. -/
namespace Streamhaul

def inputQueueDepth : Nat := 256

structure InputSession where
  queue : List InputEvent
  admittedButtonMask : UInt8
  throttled : Nat
  injector : XTestInjector

/-- A message, with the answer of the rate limiter should it be asked and whether the channel hands
out a slot should the queue be short enough; or one turn of the injection thread. -/
inductive InputCall where
  | message (bytes : Bytes) (allow slot : Bool)
  | inject

inductive InputReply where
  | ignored
  | throttled
  | full
  | enqueued (event : InputEvent)
  | idle
  | injected (event : InputEvent) (requests : List FakeInput)

/-- A pure release is always admitted; everything else asks the limiter. -/
def admitInput (event : InputEvent) (allow : Bool) (admittedButtonMask : UInt8) : Bool :=
  match event.eventType with
  | .pointerMove | .wheel | .key | .touch | .pen => allow
  | .button =>
    let curr := event.buttonMask &&& definedButtonBits
    let released := admittedButtonMask &&& ~~~curr
    let newlyPressed := curr &&& ~~~admittedButtonMask
    (released != 0 && newlyPressed == 0) || allow

namespace InputSession

def new : InputSession := ⟨[],0,0,.new⟩

def forwardInput (s : InputSession) (bytes : Bytes) (allow slot : Bool) : InputReply × InputSession :=
  match decodeInput bytes with
  | none => (.ignored,s)
  | some event =>
    if admitInput event allow s.admittedButtonMask then
      if slot ∧ s.queue.length < inputQueueDepth then
        (.enqueued event,{ s with
          queue := s.queue ++ [event]
          admittedButtonMask :=
            if event.eventType = .button then event.buttonMask &&& definedButtonBits else s.admittedButtonMask })
      else (.full,s)
    else (.throttled,{ s with throttled := satAdd u64Max s.throttled 1 })

/-- One turn of the injection thread; it waits when the queue is empty. -/
def injectNext (server : XServer) (s : InputSession) : InputReply × InputSession :=
  match s.queue with
  | [] => (.idle,s)
  | event :: rest =>
    let injection := s.injector.inject server event
    (.injected event injection.requests,{ s with queue := rest, injector := injection.injector })

def step (server : XServer) (s : InputSession) : InputCall → InputReply × InputSession
  | .message bytes allow slot => s.forwardInput bytes allow slot
  | .inject => s.injectNext server

def drained (server : XServer) (s : InputSession) : InputSession :=
  Machine.final (step server) s (List.replicate s.queue.length .inject)

end InputSession

def replies (server : XServer) (calls : List InputCall) : List InputReply :=
  (Machine.trace (InputSession.step server) InputSession.new calls).map Machine.Event.response

def enqueuedEvents (history : List InputReply) : List InputEvent :=
  history.filterMap (fun | .enqueued event => some event | _ => none)

/-- The events taken out of the queue, with what the injector sent for them. -/
def injections (history : List InputReply) : List (InputEvent × List FakeInput) :=
  history.filterMap (fun | .injected event requests => some (event,requests) | _ => none)

def injectedEvents (history : List InputReply) : List InputEvent := (injections history).map Prod.fst

def sentRequests (history : List InputReply) : List FakeInput := ((injections history).map Prod.snd).flatten

/-- The calls of a session that ends after a run: the thread drains the queue. -/
def wholeSession (server : XServer) (calls : List InputCall) : List InputCall :=
  calls ++ List.replicate (Machine.final (InputSession.step server) InputSession.new calls).queue.length .inject

def sessionRequests (server : XServer) (calls : List InputCall) : List FakeInput :=
  sentRequests (replies server (wholeSession server calls)) ++
    (Machine.final (InputSession.step server) InputSession.new (wholeSession server calls)).injector.releaseAll.1

def heldMask (events : List InputEvent) : UInt8 :=
  events.foldl (fun mask event => if event.eventType = .button then event.buttonMask else mask) 0

/-- What holds between the replies of a run and its state. -/
structure InSync (history : List InputReply) (s : InputSession) : Prop where
  queue : enqueuedEvents history = injectedEvents history ++ s.queue
  mirror : s.admittedButtonMask = heldMask (enqueuedEvents history) &&& definedButtonBits
  injector : s.injector.prevButtonMask = heldMask (injectedEvents history)
  alternating : ∀ entry ∈ buttonMap, follow false (strokes entry.2 (sentRequests history)) =
    some (isDown s.injector.prevButtonMask entry)
  recorded : ∀ front event requests rest, injections history = front ++ (event,requests) :: rest → event.eventType = .button →
    requests = XTestInjector.buttonRequests (heldMask (front.map Prod.fst)) event.buttonMask

theorem heldMask_concat (events : List InputEvent) (event : InputEvent) :
    heldMask (events ++ [event]) = if event.eventType = .button then event.buttonMask else heldMask events := by
  rw [heldMask,List.foldl_append]
  rfl

theorem enqueuedEvents_append (first second : List InputReply) :
    enqueuedEvents (first ++ second) = enqueuedEvents first ++ enqueuedEvents second := List.filterMap_append

theorem injections_append (first second : List InputReply) :
    injections (first ++ second) = injections first ++ injections second := List.filterMap_append

theorem injectedEvents_append (first second : List InputReply) :
    injectedEvents (first ++ second) = injectedEvents first ++ injectedEvents second := by
  rw [injectedEvents,injections_append,List.map_append]
  rfl

theorem sentRequests_append (first second : List InputReply) :
    sentRequests (first ++ second) = sentRequests first ++ sentRequests second := by
  rw [sentRequests,injections_append,List.map_append,List.flatten_append]
  rfl

namespace InSync

variable {history : List InputReply} {s : InputSession}

/-- A reply that neither enqueues nor injects. -/
theorem quiet {reply : InputReply} {throttled : Nat} (sync : InSync history s) (notEnqueued : enqueuedEvents [reply] = [])
    (notInjected : injections [reply] = []) : InSync (history ++ [reply]) { s with throttled := throttled } := by
  have events : injectedEvents [reply] = [] := by rw [injectedEvents,notInjected]; rfl
  have requests : sentRequests [reply] = [] := by rw [sentRequests,notInjected]; rfl
  constructor
  · rw [enqueuedEvents_append,injectedEvents_append,notEnqueued,events,List.append_nil,List.append_nil]
    exact sync.queue
  · rw [enqueuedEvents_append,notEnqueued,List.append_nil]
    exact sync.mirror
  · rw [injectedEvents_append,events,List.append_nil]
    exact sync.injector
  · rw [sentRequests_append,requests,List.append_nil]
    exact sync.alternating
  · rw [injections_append,notInjected,List.append_nil]
    exact sync.recorded

theorem enqueued (sync : InSync history s) (event : InputEvent) :
    InSync (history ++ [.enqueued event]) { s with
      queue := s.queue ++ [event]
      admittedButtonMask :=
        if event.eventType = .button then event.buttonMask &&& definedButtonBits else s.admittedButtonMask } := by
  have queued : enqueuedEvents [.enqueued event] = [event] := rfl
  have events : injectedEvents [.enqueued event] = [] := rfl
  have requests : sentRequests [.enqueued event] = [] := rfl
  have pairs : injections [.enqueued event] = [] := rfl
  constructor
  · rw [enqueuedEvents_append,injectedEvents_append,queued,events,List.append_nil,sync.queue,List.append_assoc]
  · rw [enqueuedEvents_append,queued,heldMask_concat,sync.mirror]
    split_ifs <;> rfl
  · rw [injectedEvents_append,events,List.append_nil]
    exact sync.injector
  · rw [sentRequests_append,requests,List.append_nil]
    exact sync.alternating
  · rw [injections_append,pairs,List.append_nil]
    exact sync.recorded

theorem injected {event : InputEvent} {rest : List InputEvent} (sync : InSync history s) (server : XServer)
    (next : s.queue = event :: rest) :
    InSync (history ++ [.injected event (s.injector.inject server event).requests])
      { s with queue := rest, injector := (s.injector.inject server event).injector } := by
  have queued : enqueuedEvents [.injected event (s.injector.inject server event).requests] = [] := rfl
  have events : injectedEvents [.injected event (s.injector.inject server event).requests] = [event] := rfl
  have requests : sentRequests [.injected event (s.injector.inject server event).requests] =
      (s.injector.inject server event).requests := List.append_nil _
  have pairs : injections [.injected event (s.injector.inject server event).requests] =
      [(event,(s.injector.inject server event).requests)] := rfl
  constructor
  · rw [enqueuedEvents_append,injectedEvents_append,queued,events,List.append_nil,sync.queue,next,List.append_assoc]
    rfl
  · rw [enqueuedEvents_append,queued,List.append_nil]
    exact sync.mirror
  · rw [injectedEvents_append,events,heldMask_concat,← sync.injector]
    by_cases button : event.eventType = .button
    · rw [if_pos button,XTestInjector.inject_button button]
    · rw [if_neg button]
      exact (XTestInjector.inject_other button server s.injector).1
  · intro entry member
    rw [sentRequests_append,requests,strokes_append,follow_append,sync.alternating entry member,
      XTestInjector.strokes_inject member]
    exact follow_stroke _ _ entry
  · intro front e sent behind split button
    rw [injections_append,pairs] at split
    -- the injection looked at is an earlier one or the one this step adds
    rcases List.eq_nil_or_concat behind with rfl | ⟨behind,last,rfl⟩
    · obtain ⟨same,now⟩ := List.append_inj' split rfl
      obtain ⟨rfl,rfl⟩ := Prod.mk.inj (List.singleton_inj.mp now)
      rw [XTestInjector.inject_button button,sync.injector,← same]
      rfl
    · rw [List.concat_eq_append,← List.cons_append,← List.append_assoc] at split
      exact sync.recorded front e sent behind (List.append_inj' split rfl).1 button

theorem step (sync : InSync history s) (server : XServer) (call : InputCall) :
    InSync (history ++ [(s.step server call).1]) (s.step server call).2 := by
  cases call with
  | message bytes allow slot =>
    simp only [InputSession.step,InputSession.forwardInput]
    cases decodeInput bytes with
    | none => exact sync.quiet rfl rfl
    | some event =>
      by_cases admitted : admitInput event allow s.admittedButtonMask = true
      · by_cases room : slot = true ∧ s.queue.length < inputQueueDepth
        · simp only [admitted,room,if_true]
          exact sync.enqueued event
        · simp only [admitted,room,if_true,if_false]
          exact sync.quiet rfl rfl
      · simp only [admitted,Bool.false_eq_true,if_false]
        exact sync.quiet rfl rfl
  | inject =>
    simp only [InputSession.step,InputSession.injectNext]
    cases next : s.queue with
    | nil => exact sync.quiet rfl rfl
    | cons event rest => exact sync.injected server next

end InSync

theorem replies_append (server : XServer) (first second : List InputCall) :
    replies server (first ++ second) = replies server first ++
      (Machine.trace (InputSession.step server) (Machine.final (InputSession.step server) InputSession.new first) second).map
        Machine.Event.response := by
  rw [replies,Machine.trace_append,List.map_append]
  rfl

theorem inSync_run (server : XServer) (calls : List InputCall) :
    InSync (replies server calls) (Machine.final (InputSession.step server) InputSession.new calls) := by
  have start : InSync [] InputSession.new :=
    ⟨rfl,rfl,rfl,fun entry _ => congrArg some (isDown_zero entry).symm,fun front _ _ _ split => by cases front <;> cases split⟩
  have run := Machine.history_invariant (InputSession.step server) (fun e => some e.response) (fun _ _ => True) InSync
    (fun _ _ call _ sync => sync.step server call) [] InputSession.new calls start (fun _ _ => trivial)
  rwa [List.nil_append,List.filterMap_eq_map'] at run

theorem InputSession.drained_spec (server : XServer) (s : InputSession) :
    (s.drained server).queue = [] ∧ (s.drained server).admittedButtonMask = s.admittedButtonMask := by
  obtain ⟨queue,mask,throttled,injector⟩ := s
  induction queue generalizing injector with
  | nil => exact ⟨rfl,rfl⟩
  | cons event rest ih => exact ih (injector.inject server event).injector

theorem final_wholeSession (server : XServer) (calls : List InputCall) :
    Machine.final (InputSession.step server) InputSession.new (wholeSession server calls) =
      (Machine.final (InputSession.step server) InputSession.new calls).drained server :=
  Machine.final_append _ _ _ _

theorem injectedEvents_wholeSession (server : XServer) (calls : List InputCall) :
    injectedEvents (replies server (wholeSession server calls)) =
      enqueuedEvents (replies server (wholeSession server calls)) := by
  have ended := (inSync_run server (wholeSession server calls)).queue
  rw [final_wholeSession,(InputSession.drained_spec server _).1,List.append_nil] at ended
  exact ended.symm

/-- A button event that lets go of a held button and presses none. -/
structure PureRelease (held : UInt8) (event : InputEvent) : Prop where
  button : event.eventType = .button
  released : ∃ entry ∈ buttonMap, isDown held entry = true ∧ isDown event.buttonMask entry = false
  pressed : ∀ entry ∈ buttonMap, isDown event.buttonMask entry = true → isDown held entry = true

/-- The limiter is not asked about a pure release. -/
theorem admitInput_pureRelease {held : UInt8} {event : InputEvent} (release : PureRelease held event) (allow : Bool) :
    admitInput event allow held = true := by
  obtain ⟨entry,member,down,up⟩ := release.released
  have released : held &&& ~~~(event.buttonMask &&& definedButtonBits) ≠ 0 := by
    intro none
    have clear := isDown_and_not member held (event.buttonMask &&& definedButtonBits)
    rw [none,isDown_zero,isDown_defined member,down,up] at clear
    cases clear
  have pressed : event.buttonMask &&& definedButtonBits &&& ~~~held = 0 := by
    have clear : event.buttonMask &&& ~~~held &&& definedButtonBits = 0 &&& definedButtonBits := by
      rw [defined_eq_iff]
      intro e inside
      rw [isDown_and_not inside,isDown_zero]
      cases was : isDown event.buttonMask e with
      | false => rfl
      | true => rw [release.pressed e inside was]; rfl
    rw [UInt8.and_assoc,UInt8.and_comm definedButtonBits,← UInt8.and_assoc,clear]
    rfl
  simp [admitInput,release.button,released,pressed]

theorem release_mem_buttonRequests {prev curr : UInt8} {entry : UInt8 × UInt8} (member : entry ∈ buttonMap)
    (down : isDown prev entry = true) (up : isDown curr entry = false) :
    (⟨buttonRelease,entry.2,0,0⟩ : FakeInput) ∈ XTestInjector.buttonRequests prev curr := by
  rw [XTestInjector.buttonRequests_eq,List.mem_filterMap]
  refine ⟨entry,member,?_⟩
  simp [down,up]

/-- Whatever is sent, throttled and dropped, and wherever the session ends, no button gets stuck. -/
theorem no_stuck_button (server : XServer) (calls : List InputCall) :
    let s := Machine.final (InputSession.step server) InputSession.new calls
    s.admittedButtonMask = (s.drained server).injector.prevButtonMask &&& definedButtonBits ∧
    (∀ entry ∈ buttonMap, ∃ down, follow false (strokes entry.2 (sentRequests (replies server calls))) = some down) ∧
    (∀ entry ∈ buttonMap, follow false (strokes entry.2 (sessionRequests server calls)) = some false) ∧
    ∀ bytes event allow later, decodeInput bytes = some event → PureRelease s.admittedButtonMask event →
      s.queue.length < inputQueueDepth →
      ∃ front requests behind, injections (replies server (wholeSession server (calls ++ .message bytes allow true :: later))) =
          front ++ (event,requests) :: behind ∧ front.map Prod.fst = enqueuedEvents (replies server calls) ∧
        ∀ entry ∈ buttonMap, isDown s.admittedButtonMask entry = true → isDown event.buttonMask entry = false →
          (⟨buttonRelease,entry.2,0,0⟩ : FakeInput) ∈ requests := by
  intro s
  have sync := inSync_run server calls
  have ended := inSync_run server (wholeSession server calls)
  refine ⟨?_,fun entry member => ⟨_,sync.alternating entry member⟩,fun entry member => ?_,?_⟩
  · rw [← final_wholeSession,ended.injector,injectedEvents_wholeSession,← ended.mirror,final_wholeSession]
    exact (InputSession.drained_spec server s).2.symm
  · rw [sessionRequests,strokes_append,follow_append,ended.alternating entry member]
    exact XTestInjector.follow_releaseAll member _
  · intro bytes event allow later decoded release room
    have enqueued : (s.step server (.message bytes allow true)).1 = .enqueued event := by
      simp [InputSession.step,InputSession.forwardInput,decoded,admitInput_pureRelease release,room]
    -- everything enqueued is injected, and the event is enqueued right behind what came before it
    have injected := injectedEvents_wholeSession server (calls ++ .message bytes allow true :: later)
    have position : ∃ behind, injectedEvents (replies server
          (wholeSession server (calls ++ .message bytes allow true :: later))) =
        enqueuedEvents (replies server calls) ++ event :: behind := by
      rw [injected,wholeSession,List.append_assoc,replies_append,enqueuedEvents_append,List.cons_append,Machine.trace,
        List.map_cons,Machine.fire,enqueued]
      exact ⟨_,rfl⟩
    obtain ⟨behind,split⟩ := position
    obtain ⟨front,tail,whole,first,second⟩ := List.map_eq_append_iff.mp split
    obtain ⟨⟨e,requests⟩,behind',rfl,rfl,-⟩ := List.map_eq_cons_iff.mp second
    refine ⟨front,requests,behind',whole,first,fun entry member down up => ?_⟩
    rw [(inSync_run server _).recorded front _ requests behind' whole release.button,first]
    refine release_mem_buttonRequests member ?_ up
    rw [← isDown_defined member,← sync.mirror]
    exact down

namespace Transparent

def smallServer : XServer := ⟨640,480,8,255,.error "GetKeyboardMapping reply failed"⟩

def buttons (mask : UInt8) : InputEvent := ⟨.button,0,0,0,mask,0,0,0,0⟩

/-- The left button with an undefined bit, then a second button, which the limiter refuses. -/
def leftHeld : List InputCall :=
  [.message (buttons 0x81).encode true true,.inject,.message (buttons 0x03).encode false true]

end Transparent

/-- The left button is held and the limiter refuses everything: the release still reaches the server. -/
theorem release_not_throttled :
    PureRelease (Machine.final (InputSession.step Transparent.smallServer) InputSession.new
      Transparent.leftHeld).admittedButtonMask
      (Transparent.buttons 0) ∧
    ∃ requests, (Transparent.buttons 0,requests) ∈
      injections (replies Transparent.smallServer (wholeSession Transparent.smallServer
        (Transparent.leftHeld ++ [.message (Transparent.buttons 0).encode false true]))) ∧
      (⟨buttonRelease,1,0,0⟩ : FakeInput) ∈ requests := by
  have release : PureRelease (Machine.final (InputSession.step Transparent.smallServer) InputSession.new
      Transparent.leftHeld).admittedButtonMask (Transparent.buttons 0) := by
    refine ⟨rfl,⟨(0x01,1),by decide,by decide +kernel,by decide⟩,fun entry _ down => ?_⟩
    exact absurd ((isDown_zero entry).symm.trans down) (by decide)
  refine ⟨release,?_⟩
  obtain ⟨front,requests,behind,injected,-,sent⟩ := (no_stuck_button Transparent.smallServer Transparent.leftHeld).2.2.2
    (Transparent.buttons 0).encode (Transparent.buttons 0) false [] (decodeInput_encode _) release (by decide +kernel)
  refine ⟨requests,?_,sent (0x01,1) (by decide) (by decide +kernel) (by decide)⟩
  rw [injected]
  exact List.mem_append_right _ List.mem_cons_self

end Streamhaul
