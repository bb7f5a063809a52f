import Streamhaul.InputSession

/-! How much input gets past the limiter. A pure release is not charged, but it spends a held button, and
only a granted event can hold one: the number of held buttons is the potential that pays for the releases. -/
namespace Streamhaul

/-- One message at the gate, with the answer of the limiter should it be asked and of the queue should
the event be offered to it. -/
structure GateCall where
  bytes : Bytes
  allow : Bool
  sent : Bool

/-- Whether the limiter was asked, and what was put into the queue. -/
structure GateReply where
  asked : Bool
  enqueued : Option InputEvent

/-- The events that the limiter is not asked about. -/
def bypasses (event : InputEvent) (held : UInt8) : Bool :=
  event.eventType = .button && (held &&& ~~~(event.buttonMask &&& definedButtonBits) != 0 &&
    event.buttonMask &&& definedButtonBits &&& ~~~held == 0)

/-- What a session does with a message, for any limiter and any queue; the state is the mirror of the
button mask. -/
def gate (held : UInt8) (call : GateCall) : GateReply × UInt8 :=
  match decodeInput call.bytes with
  | none => (⟨false,none⟩,held)
  | some event =>
    if admitInput event call.allow held && call.sent then
      (⟨!bypasses event held,some event⟩,if event.eventType = .button then event.buttonMask &&& definedButtonBits else held)
    else (⟨!bypasses event held,none⟩,held)

namespace Gate

abbrev Occurrence := Machine.Event UInt8 GateCall GateReply

def granted (e : Occurrence) : Bool := e.response.asked && e.call.allow

def enqueued (e : Occurrence) : Bool := e.response.enqueued.isSome

def bypassed (e : Occurrence) : Bool := enqueued e && !e.response.asked

def pressed (e : Occurrence) : Bool :=
  granted e && buttonMap.any (fun entry => isDown e.after entry && !isDown e.before entry)

end Gate

theorem admitInput_eq (event : InputEvent) (allow : Bool) (held : UInt8) :
    admitInput event allow held = (bypasses event held || allow) := by
  cases kind : event.eventType <;> simp [admitInput,bypasses,kind]

/-- The number of defined buttons that a mask holds down. -/
def heldCount (mask : UInt8) : Nat := buttonMap.countP (isDown mask)

theorem heldCount_le (mask : UInt8) : heldCount mask ≤ 3 := List.countP_le_length

theorem heldCount_defined (mask : UInt8) : heldCount (mask &&& definedButtonBits) = heldCount mask :=
  List.countP_congr fun entry member => by rw [isDown_defined member]

theorem heldCount_mono {before after : UInt8}
    (none : buttonMap.any (fun entry => isDown after entry && !isDown before entry) = false) :
    heldCount after ≤ heldCount before := by
  refine List.countP_mono_left fun entry member down => ?_
  have up := List.any_eq_false.mp none entry member
  simpa [down] using up

theorem heldCount_lt {held : UInt8} {event : InputEvent} (release : PureRelease held event) :
    heldCount (event.buttonMask &&& definedButtonBits) < heldCount held := by
  obtain ⟨entry,member,down,up⟩ := release.released
  obtain ⟨front,behind,split⟩ := List.append_of_mem member
  have fewer : ∀ part : List (UInt8 × UInt8), part ⊆ buttonMap →
      part.countP (isDown event.buttonMask) ≤ part.countP (isDown held) :=
    fun part inside => List.countP_mono_left fun e among => release.pressed e (inside among)
  have first := fewer front (by simp [split])
  have second := fewer behind (by simp [split])
  rw [heldCount_defined]
  simp only [heldCount,split,List.countP_append,List.countP_cons,down,up]
  simp only [Bool.false_eq_true,if_true,if_false]
  omega

/-- With a mirror of defined bits, exactly the pure releases bypass the limiter. -/
theorem pureRelease_of_bypasses {held : UInt8} {event : InputEvent} (defined : held &&& definedButtonBits = held)
    (free : bypasses event held = true) : PureRelease held event := by
  obtain ⟨button,released,pressed⟩ : event.eventType = .button ∧
      held &&& ~~~(event.buttonMask &&& definedButtonBits) ≠ 0 ∧ event.buttonMask &&& definedButtonBits &&& ~~~held = 0 := by
    simpa [bypasses] using free
  refine ⟨button,?_,fun entry member down => ?_⟩
  · by_contra kept
    push Not at kept
    refine released ?_
    have clear : held &&& ~~~(event.buttonMask &&& definedButtonBits) &&& definedButtonBits = 0 &&& definedButtonBits := by
      rw [defined_eq_iff]
      intro entry member
      rw [isDown_and_not member,isDown_defined member,isDown_zero]
      cases down : isDown held entry with
      | false => rfl
      | true => simpa using kept entry member down
    rw [UInt8.and_assoc,UInt8.and_comm _ definedButtonBits,← UInt8.and_assoc,defined] at clear
    exact clear
  · have up := isDown_and_not member (event.buttonMask &&& definedButtonBits) held
    rw [pressed,isDown_zero,isDown_defined member,down] at up
    simpa using up

namespace Gate

def Defined (held : UInt8) : Prop := held &&& definedButtonBits = held

theorem defined_step (held : UInt8) (call : GateCall) (defined : Defined held) : Defined (gate held call).2 := by
  simp only [gate]
  cases decodeInput call.bytes with
  | none => exact defined
  | some event =>
    dsimp only
    split_ifs
    · exact (UInt8.and_assoc _ _ _).trans rfl
    · exact defined
    · exact defined

/-- What one message can do to the mirror: nothing, unless it enqueues a button event; such an event was
granted, or it is a pure release. -/
theorem gate_cases (held : UInt8) (call : GateCall) (defined : Defined held) :
    (enqueued (Machine.fire gate held call) = false ∧ (gate held call).2 = held) ∨
    (enqueued (Machine.fire gate held call) = true ∧ granted (Machine.fire gate held call) = true ∧
      bypassed (Machine.fire gate held call) = false) ∨
    (bypassed (Machine.fire gate held call) = true ∧ heldCount (gate held call).2 < heldCount held) := by
  cases decoded : decodeInput call.bytes with
  | none => exact Or.inl (by simp [enqueued,Machine.fire,gate,decoded])
  | some event =>
    by_cases taken : (admitInput event call.allow held && call.sent) = true
    · have result : gate held call = (⟨!bypasses event held,some event⟩,
          if event.eventType = .button then event.buttonMask &&& definedButtonBits else held) := by
        simp only [gate,decoded,taken,if_true]
      refine Or.inr ?_
      cases free : bypasses event held with
      | false =>
        have allowed : call.allow = true := by
          simpa [admitInput_eq,free] using And.left ((Bool.and_eq_true _ _).mp taken)
        exact Or.inl (by simp [enqueued,granted,bypassed,Machine.fire,result,free,allowed])
      | true =>
        have release := pureRelease_of_bypasses defined free
        refine Or.inr ⟨by simp [enqueued,bypassed,Machine.fire,result,free],?_⟩
        rw [result,if_pos release.button]
        exact heldCount_lt release
    · exact Or.inl (by simp [enqueued,Machine.fire,gate,decoded,taken])

/-- An enqueued event is paid by a grant, which is worth four, or by a button it lets go. -/
theorem enqueued_covered (held : UInt8) (call : GateCall) (defined : Defined held) :
    (enqueued (Machine.fire gate held call)).toNat + heldCount (gate held call).2 ≤
      4 * (granted (Machine.fire gate held call)).toNat + heldCount held := by
  have most := heldCount_le (gate held call).2
  rcases gate_cases held call defined with ⟨nothing,same⟩ | ⟨taken,paid,-⟩ | ⟨free,fewer⟩
  · simp [nothing,same]
  · simp only [taken,paid,Bool.toNat_true]
    omega
  · have one := Bool.toNat_le (enqueued (Machine.fire gate held call))
    omega

/-- A bypassing release is paid by a granted press, which is worth three, or by a button it lets go. -/
theorem bypassed_covered (held : UInt8) (call : GateCall) (defined : Defined held) :
    (bypassed (Machine.fire gate held call)).toNat + heldCount (gate held call).2 ≤
      3 * (pressed (Machine.fire gate held call)).toNat + heldCount held := by
  have most := heldCount_le (gate held call).2
  rcases gate_cases held call defined with ⟨nothing,same⟩ | ⟨-,paid,asked⟩ | ⟨free,fewer⟩
  · simp [bypassed,nothing,same]
  · cases more : pressed (Machine.fire gate held call) with
    | true =>
      simp only [asked,Bool.toNat_true,Bool.toNat_false]
      omega
    | false =>
      rw [pressed,paid,Bool.true_and] at more
      have kept : heldCount (gate held call).2 ≤ heldCount held := heldCount_mono more
      simpa [asked] using kept
  · have one := Bool.toNat_le (bypassed (Machine.fire gate held call))
    omega

end Gate

namespace InputSession

/-- What the gate sees of a session: each message, with the answer that the bounded queue gives. -/
def atGate (e : Machine.Event InputSession InputCall InputReply) : Option GateCall :=
  match e.call with
  | .message bytes allow slot => some ⟨bytes,allow,decide (slot ∧ e.before.queue.length < inputQueueDepth)⟩
  | .inject => none

def gateCalls (server : XServer) (s : InputSession) (calls : List InputCall) : List GateCall :=
  (Machine.trace (step server) s calls).filterMap atGate

theorem forwardInput_gate (s : InputSession) (bytes : Bytes) (allow slot : Bool) :
    let call : GateCall := ⟨bytes,allow,decide (slot ∧ s.queue.length < inputQueueDepth)⟩
    enqueuedEvents [(s.forwardInput bytes allow slot).1] = (gate s.admittedButtonMask call).1.enqueued.toList ∧
      (s.forwardInput bytes allow slot).2.admittedButtonMask = (gate s.admittedButtonMask call).2 := by
  intro call
  simp only [forwardInput,gate]
  cases decodeInput bytes with
  | none => exact ⟨rfl,rfl⟩
  | some event =>
    by_cases admitted : admitInput event allow s.admittedButtonMask = true
    · by_cases room : slot = true ∧ s.queue.length < inputQueueDepth
      · simp [call,admitted,room,enqueuedEvents]
      · simp [call,admitted,room,enqueuedEvents]
    · simp [call,admitted,enqueuedEvents]

theorem gateCalls_message (server : XServer) (s : InputSession) (bytes : Bytes) (allow slot : Bool) (rest : List InputCall) :
    gateCalls server s (.message bytes allow slot :: rest) =
      ⟨bytes,allow,decide (slot ∧ s.queue.length < inputQueueDepth)⟩ ::
        gateCalls server (s.forwardInput bytes allow slot).2 rest := rfl

theorem gateCalls_inject (server : XServer) (s : InputSession) (rest : List InputCall) :
    gateCalls server s (.inject :: rest) = gateCalls server (s.injectNext server).2 rest := rfl

theorem enqueuedEvents_gate (server : XServer) (s : InputSession) (calls : List InputCall) :
    enqueuedEvents ((Machine.trace (step server) s calls).map Machine.Event.response) =
      (Machine.trace gate s.admittedButtonMask (gateCalls server s calls)).filterMap (fun e => e.response.enqueued) := by
  induction calls generalizing s with
  | nil => rfl
  | cons call rest ih =>
    rw [Machine.trace,List.map_cons,← List.singleton_append,enqueuedEvents_append,ih]
    cases call with
    | message bytes allow slot =>
      obtain ⟨same,next⟩ := forwardInput_gate s bytes allow slot
      rw [gateCalls_message,Machine.filterMap_trace_cons,← next]
      exact congrArg (· ++ _) same
    | inject =>
      have quiet : enqueuedEvents [(s.injectNext server).1] = [] ∧
          (s.injectNext server).2.admittedButtonMask = s.admittedButtonMask := by
        simp only [injectNext]
        cases s.queue <;> exact ⟨rfl,rfl⟩
      rw [gateCalls_inject,← quiet.2]
      exact congrArg (· ++ _) quiet.1

end InputSession

/-- For any messages and any answers of the limiter and of the queue, at most four events per grant are
enqueued, and at most three releases per granted press bypass the limiter; and so in every session. -/
theorem input_flood_bound :
    (∀ calls : List GateCall,
      (Machine.trace gate 0 calls).countP Gate.enqueued ≤ 4 * (Machine.trace gate 0 calls).countP Gate.granted ∧
      (Machine.trace gate 0 calls).countP Gate.bypassed ≤ 3 * (Machine.trace gate 0 calls).countP Gate.pressed) ∧
    ∀ server calls, (enqueuedEvents (replies server calls)).length ≤
      4 * (Machine.trace gate 0 (InputSession.gateCalls server .new calls)).countP Gate.granted := by
  have bound : ∀ calls : List GateCall,
      (Machine.trace gate 0 calls).countP Gate.enqueued ≤ 4 * (Machine.trace gate 0 calls).countP Gate.granted :=
    fun calls => Nat.le_of_add_right_le
      (Machine.spent_le gate Gate.Defined heldCount 4 Gate.enqueued Gate.granted Gate.defined_step
        Gate.enqueued_covered 0 calls rfl)
  have free : ∀ calls : List GateCall,
      (Machine.trace gate 0 calls).countP Gate.bypassed ≤ 3 * (Machine.trace gate 0 calls).countP Gate.pressed :=
    fun calls => Nat.le_of_add_right_le
      (Machine.spent_le gate Gate.Defined heldCount 3 Gate.bypassed Gate.pressed Gate.defined_step
        Gate.bypassed_covered 0 calls rfl)
  refine ⟨fun calls => ⟨bound calls,free calls⟩,fun server calls => ?_⟩
  have same := InputSession.enqueuedEvents_gate server .new calls
  rw [replies,same,List.length_filterMap_eq_countP]
  exact bound _

-- the bounds are met: three buttons pressed by one granted event, let go one by one
example : (Machine.trace gate 0 (([0x07,0x06,0x04,0x00] : List UInt8).map fun mask =>
    ⟨(Transparent.buttons mask).encode,mask == 0x07,true⟩)).map Gate.bypassed = [false,true,true,true] := by decide +kernel

end Streamhaul
