import Mathlib.Data.Nat.Bitwise
import Streamhaul.Chunks
import Streamhaul.InputEvents

/-! The XTEST injector. Every request to the X server succeeds; what an injection sends is
returned as a list of requests. The injector remembers the last button mask and presses and
releases the buttons that changed. -/
namespace Streamhaul

inductive InputError where
  | unsupported (reason : String)
  | backend (message : String)
  deriving DecidableEq

/-- One `xtest_fake_input` request. -/
structure FakeInput where
  eventType : UInt8
  detail : UInt8
  rootX : Int
  rootY : Int
  deriving DecidableEq

def motionNotify : UInt8 := 6
def buttonPress : UInt8 := 4
def buttonRelease : UInt8 := 5
def keyPress : UInt8 := 2
def keyRelease : UInt8 := 3

def definedButtonBits : UInt8 := 0x07

/-- Bits of the mask and the X11 buttons they stand for. -/
def buttonMap : List (UInt8 × UInt8) := [(0x01,1),(0x02,2),(0x04,3)]

/-- The screen, and what the server answers to `GetKeyboardMapping`. -/
structure XServer where
  width : Nat
  height : Nat
  minKeycode : UInt8
  maxKeycode : UInt8
  mapping : Except String (UInt8 × List UInt32)

abbrev KeysymMap := List (UInt32 × UInt8)

def lookup (map : KeysymMap) (keysym : UInt32) : Option UInt8 := (map.find? (fun entry => entry.1 == keysym)).map Prod.snd

def buildKeysymEntries (keysyms : List UInt32) (ksPerKc : Nat) (minKeycode : UInt8) (count : Nat) :
    Except InputError KeysymMap :=
  if ksPerKc = 0 then .error (.backend "GetKeyboardMapping returned keysyms_per_keycode = 0")
  else .ok ((List.range (min (Chunks.count ksPerKc keysyms) count)).foldl (fun entries offset =>
    let keycode := UInt8.ofNat (satAdd 255 minKeycode.toNat (min offset 255))
    (Chunks.chunk ksPerKc keysyms offset).foldl (fun entries ks =>
      if ks ≠ 0 ∧ entries.any (fun entry => entry.1 == ks) = false then entries ++ [(ks,keycode)] else entries) entries) [])

structure XTestInjector where
  prevButtonMask : UInt8
  keysymToKeycode : Option KeysymMap
  deriving DecidableEq

/-- The pixel of a normalized coordinate, rounded half up. -/
def mapAxis (norm : UInt16) (extent : Nat) : Int :=
  if extent = 1 then 0 else min (((norm.toNat * (extent - 1) + 32767) / 65535 : Nat) : Int) (2 ^ 31 - 1)

def hidToKeysym (hid : UInt16) : Option UInt32 :=
  let h := hid.toNat
  if 0x04 ≤ h ∧ h ≤ 0x1D then some (UInt32.ofNat (0x61 + (h - 0x04)))
  else if 0x1E ≤ h ∧ h ≤ 0x26 then some (UInt32.ofNat (0x31 + (h - 0x1E)))
  else if 0x3A ≤ h ∧ h ≤ 0x45 then some (UInt32.ofNat (0xFFBE + (h - 0x3A)))
  else
    ([(0x27,0x30),(0x28,0xFF0D),(0x29,0xFF1B),(0x2A,0xFF08),(0x2B,0xFF09),(0x2C,0x20),(0x2D,0x2D),(0x2E,0x3D),(0x2F,0x5B),
      (0x30,0x5D),(0x31,0x5C),(0x33,0x3B),(0x34,0x27),(0x35,0x60),(0x36,0x2C),(0x37,0x2E),(0x38,0x2F),(0x4F,0xFF53),
      (0x50,0xFF51),(0x51,0xFF54),(0x52,0xFF52),(0x49,0xFF63),(0x4A,0xFF50),(0x4B,0xFF55),(0x4C,0xFFFF),(0x4D,0xFF57),
      (0x4E,0xFF56),(0xE0,0xFFE3),(0xE1,0xFFE1),(0xE2,0xFFE9),(0xE3,0xFFEB),(0xE4,0xFFE4),(0xE5,0xFFE2),(0xE6,0xFFEA),
      (0xE7,0xFFEC)] : List (Nat × UInt32)).lookup h

def modifierKeycodes (modifiers : UInt8) (map : KeysymMap) : List (UInt32 × UInt8) :=
  ([(0xFFE1,1),(0xFFE3,2),(0xFFE9,4),(0xFFEB,8)] : List (UInt32 × UInt8)).filterMap (fun candidate =>
    if modifiers &&& candidate.2 = candidate.2 then
      (lookup map candidate.1).map (fun keycode => (candidate.1,keycode))
    else none)

/-- What an injection answers, what it sends, and the injector after it. -/
structure Injection where
  result : Except InputError Unit
  requests : List FakeInput
  injector : XTestInjector

namespace XTestInjector

def new : XTestInjector := ⟨0,none⟩

/-- The keyboard map, read from the server once. -/
def keysymMap (server : XServer) (j : XTestInjector) : Except InputError (KeysymMap × XTestInjector) :=
  match j.keysymToKeycode with
  | some entries => .ok (entries,j)
  | none =>
    match server.mapping with
    | .error message => .error (.backend message)
    | .ok (keysymsPerKeycode,keysyms) =>
      let count := satAdd 255 (server.maxKeycode.toNat - server.minKeycode.toNat) 1
      match buildKeysymEntries keysyms keysymsPerKeycode.toNat server.minKeycode count with
      | .error e => .error e
      | .ok entries => .ok (entries,{ j with keysymToKeycode := some entries })

def buttonRequests (prev curr : UInt8) : List FakeInput :=
  buttonMap.filterMap (fun entry =>
    if (curr ^^^ prev) &&& entry.1 = 0 then none
    else some ⟨if curr &&& entry.1 ≠ 0 then buttonPress else buttonRelease,entry.2,0,0⟩)

def wheelRequests (delta : Int16) (positive negative : UInt8) : List FakeInput :=
  if delta ≠ 0 then
    let button := if 0 < delta then positive else negative
    [⟨buttonPress,button,0,0⟩,⟨buttonRelease,button,0,0⟩]
  else []

def keyRequests (keycode : UInt8) (modifiers : List (UInt32 × UInt8)) : List FakeInput :=
  modifiers.map (fun entry => ⟨keyPress,entry.2,0,0⟩) ++ [⟨keyPress,keycode,0,0⟩,⟨keyRelease,keycode,0,0⟩] ++
    modifiers.reverse.map (fun entry => ⟨keyRelease,entry.2,0,0⟩)

def inject (server : XServer) (j : XTestInjector) (event : InputEvent) : Injection :=
  match event.eventType with
  | .pointerMove =>
    ⟨.ok (),[⟨motionNotify,0,min (mapAxis event.pointerX server.width) 32767,
      min (mapAxis event.pointerY server.height) 32767⟩],j⟩
  | .button =>
    ⟨.ok (),buttonRequests j.prevButtonMask event.buttonMask,{ j with prevButtonMask := event.buttonMask }⟩
  | .wheel => ⟨.ok (),wheelRequests event.scrollY 4 5 ++ wheelRequests event.scrollX 7 6,j⟩
  | .key =>
    match hidToKeysym event.keyCode with
    | none => ⟨.error (.unsupported "USB HID key code not in supported subset; key injection refused"),[],j⟩
    | some keysym =>
      match j.keysymMap server with
      | .error e => ⟨.error e,[],j⟩
      | .ok (map,j) =>
        match lookup map keysym with
        | none => ⟨.error (.unsupported "keysym has no keycode binding on this X server"),[],j⟩
        | some keycode =>
          ⟨.ok (),keyRequests keycode ((modifierKeycodes event.modifiers map).filter (fun entry => entry.2 ≠ keycode)),j⟩
  | .touch =>
    ⟨.error (.unsupported "Touch injection is not yet supported on Linux X11 (deferred: R-LINUX-WAYLAND)"),[],j⟩
  | .pen =>
    ⟨.error (.unsupported "Pen/stylus injection is not yet supported on Linux X11 (deferred: R-LINUX-WAYLAND)"),[],j⟩

def releaseAll (j : XTestInjector) : List FakeInput × XTestInjector :=
  if j.prevButtonMask &&& definedButtonBits = 0 then ([],j)
  else
    (buttonMap.filterMap (fun entry =>
      if j.prevButtonMask &&& entry.1 = 0 then none else some ⟨buttonRelease,entry.2,0,0⟩),{ j with prevButtonMask := 0 })

end XTestInjector

def strokes (button : UInt8) (requests : List FakeInput) : List Bool :=
  requests.filterMap (fun request =>
    if request.detail ≠ button then none
    else if request.eventType = buttonPress then some true
    else if request.eventType = buttonRelease then some false
    else none)

/-- Follows strokes from a button that is down or up; absent when a stroke repeats the one before. -/
def follow : Bool → List Bool → Option Bool
  | down, [] => some down
  | down, stroke :: rest => if stroke = down then none else follow stroke rest

theorem follow_append (down : Bool) (first second : List Bool) :
    follow down (first ++ second) = (follow down first).bind (fun down => follow down second) := by
  induction first generalizing down with
  | nil => rfl
  | cons stroke rest ih =>
    rw [List.cons_append,follow,follow]
    split_ifs
    · rfl
    · exact ih stroke

theorem strokes_append (button : UInt8) (first second : List FakeInput) :
    strokes button (first ++ second) = strokes button first ++ strokes button second := List.filterMap_append

def isDown (mask : UInt8) (entry : UInt8 × UInt8) : Bool := mask &&& entry.1 ≠ 0

variable {entry : UInt8 × UInt8}

theorem mem_buttonMap (member : entry ∈ buttonMap) :
    entry = (0x01,1) ∨ entry = (0x02,2) ∨ entry = (0x04,3) := by
  simpa only [buttonMap,List.mem_cons,List.not_mem_nil,or_false] using member

/-- An entry of the map stands for one bit. -/
theorem exists_bit (member : entry ∈ buttonMap) : ∃ i < 3, entry.1.toNat = 2 ^ i := by
  rcases mem_buttonMap member with rfl | rfl | rfl
  · exact ⟨0,by decide,rfl⟩
  · exact ⟨1,by decide,rfl⟩
  · exact ⟨2,by decide,rfl⟩

theorem isDown_eq {i : Nat} (bit : entry.1.toNat = 2 ^ i) (mask : UInt8) :
    isDown mask entry = mask.toNat.testBit i := by
  have masked : (mask &&& entry.1).toNat = (mask.toNat.testBit i).toNat * 2 ^ i := by
    rw [UInt8.toNat_and,bit,Nat.and_two_pow]
  have down : mask &&& entry.1 ≠ 0 ↔ (mask &&& entry.1).toNat ≠ 0 := not_congr UInt8.toNat_inj.symm
  rw [Bool.eq_iff_iff,isDown,decide_eq_true_eq,down,masked]
  cases mask.toNat.testBit i <;> simp

theorem changed_iff (member : entry ∈ buttonMap) (prev curr : UInt8) :
    (curr ^^^ prev) &&& entry.1 = 0 ↔ isDown curr entry = isDown prev entry := by
  obtain ⟨i,-,bit⟩ := exists_bit member
  have changed : isDown (curr ^^^ prev) entry = (isDown curr entry ^^ isDown prev entry) := by
    rw [isDown_eq bit,isDown_eq bit,isDown_eq bit,UInt8.toNat_xor,Nat.testBit_xor]
  have unchanged : (curr ^^^ prev) &&& entry.1 = 0 ↔ isDown (curr ^^^ prev) entry = false := by
    rw [isDown,decide_eq_false_iff_not,not_not]
  rw [unchanged,changed]
  cases isDown curr entry <;> cases isDown prev entry <;> decide

theorem isDown_defined (member : entry ∈ buttonMap) (mask : UInt8) :
    isDown (mask &&& definedButtonBits) entry = isDown mask entry := by
  have kept : definedButtonBits &&& entry.1 = entry.1 := by
    rcases mem_buttonMap member with rfl | rfl | rfl <;> rfl
  rw [isDown,isDown,UInt8.and_assoc,kept]

theorem exists_entry {i : Nat} (inside : i < 3) : ∃ entry ∈ buttonMap, entry.1.toNat = 2 ^ i := by
  interval_cases i
  · exact ⟨(0x01,1),by decide,rfl⟩
  · exact ⟨(0x02,2),by decide,rfl⟩
  · exact ⟨(0x04,3),by decide,rfl⟩

/-- Two masks with the same defined bits have the same buttons down, and the other way round. -/
theorem defined_eq_iff (first second : UInt8) : first &&& definedButtonBits = second &&& definedButtonBits ↔
    ∀ entry ∈ buttonMap, isDown first entry = isDown second entry := by
  constructor
  · intro same entry member
    rw [← isDown_defined member,same,isDown_defined member]
  · intro same
    apply UInt8.toNat_inj.mp
    have bits : definedButtonBits.toNat = 2 ^ 3 - 1 := rfl
    rw [UInt8.toNat_and,UInt8.toNat_and,bits]
    apply Nat.eq_of_testBit_eq
    intro i
    rw [Nat.testBit_and,Nat.testBit_and,Nat.testBit_two_pow_sub_one]
    by_cases inside : i < 3
    · obtain ⟨entry,member,bit⟩ := exists_entry inside
      rw [← isDown_eq bit,← isDown_eq bit,same entry member]
    · simp [inside]

theorem isDown_zero (entry : UInt8 × UInt8) : isDown 0 entry = false := by
  simp [isDown]

theorem isDown_and_not (member : entry ∈ buttonMap) (first second : UInt8) :
    isDown (first &&& ~~~second) entry = (isDown first entry && !isDown second entry) := by
  obtain ⟨i,inside,bit⟩ := exists_bit member
  have complement : (~~~second).toNat = 2 ^ 8 - (second.toNat + 1) := by
    rw [UInt8.toNat_not]
    simp only [UInt8.size]
    omega
  rw [isDown_eq bit,isDown_eq bit,isDown_eq bit,UInt8.toNat_and,Nat.testBit_and,complement,
    Nat.testBit_two_pow_sub_succ second.toNat_lt]
  have : i < 8 := by omega
  simp [this]

def stroke (prev curr : UInt8) (entry : UInt8 × UInt8) : List Bool :=
  if isDown curr entry = isDown prev entry then [] else [isDown curr entry]

theorem follow_stroke (prev curr : UInt8) (entry : UInt8 × UInt8) :
    follow (isDown prev entry) (stroke prev curr entry) = some (isDown curr entry) := by
  unfold stroke
  cases isDown curr entry <;> cases isDown prev entry <;> rfl

namespace XTestInjector

theorem buttonRequests_eq (prev curr : UInt8) :
    buttonRequests prev curr = buttonMap.filterMap (fun entry =>
      if isDown curr entry = isDown prev entry then none
      else some ⟨if isDown curr entry then buttonPress else buttonRelease,entry.2,0,0⟩) := by
  unfold buttonRequests
  apply List.filterMap_congr
  intro entry member
  simp only [changed_iff member,isDown,decide_eq_true_eq]

variable {entry : UInt8 × UInt8}

theorem filterMap_entry (member : entry ∈ buttonMap) (f : UInt8 × UInt8 → Option Bool) :
    buttonMap.filterMap (fun e => if e.2 ≠ entry.2 then none else f e) = (f entry).toList := by
  have once : buttonMap.filter (fun e => e.2 = entry.2) = [entry] := by
    rcases mem_buttonMap member with rfl | rfl | rfl <;> rfl
  have split : ∀ e, (if e.2 ≠ entry.2 then none else f e) = (Option.guard (fun e => e.2 = entry.2) e).bind f := by
    intro e
    by_cases same : e.2 = entry.2 <;> simp [Option.guard,same]
  simp only [split]
  rw [← List.filterMap_filterMap,List.filterMap_eq_filter,once]
  cases found : f entry <;> simp [found]

theorem strokes_buttonRequests (member : entry ∈ buttonMap) (prev curr : UInt8) :
    strokes entry.2 (buttonRequests prev curr) = stroke prev curr entry := by
  rw [buttonRequests_eq,strokes,List.filterMap_filterMap]
  have only := filterMap_entry member (fun e => if isDown curr e = isDown prev e then none else some (isDown curr e))
  refine Eq.trans (List.filterMap_congr ?_) (only.trans ?_)
  · intro e _
    by_cases same : isDown curr e = isDown prev e
    · simp [same]
    · rw [if_neg same,if_neg same]
      cases isDown curr e <;> simp [buttonPress,buttonRelease]
  · unfold stroke
    split_ifs <;> rfl

theorem strokes_eq_nil {button : UInt8} {requests : List FakeInput} (other : ∀ request ∈ requests,
    request.detail ≠ button ∨ request.eventType ≠ buttonPress ∧ request.eventType ≠ buttonRelease) :
    strokes button requests = [] := by
  rw [strokes,List.filterMap_eq_nil_iff]
  intro request member
  rcases other request member with detail | ⟨press,release⟩
  · rw [if_pos detail]
  · rw [if_neg press,if_neg release,ite_self]

theorem button_lt (member : entry ∈ buttonMap) : entry.2 < 4 := by
  rcases mem_buttonMap member with rfl | rfl | rfl <;> decide

theorem strokes_wheelRequests (member : entry ∈ buttonMap) (delta : Int16) {positive negative : UInt8}
    (above : 4 ≤ positive) (above' : 4 ≤ negative) : strokes entry.2 (wheelRequests delta positive negative) = [] := by
  have small := button_lt member
  have wheel : ∀ b : UInt8, 4 ≤ b → b ≠ entry.2 := fun b large same => UInt8.not_lt.mpr (same ▸ large) small
  apply strokes_eq_nil
  intro request sent
  left
  unfold wheelRequests at sent
  split_ifs at sent with moved up
  · simp only [List.mem_cons,List.not_mem_nil,or_false] at sent
    rcases sent with rfl | rfl <;> exact wheel _ above
  · simp only [List.mem_cons,List.not_mem_nil,or_false] at sent
    rcases sent with rfl | rfl <;> exact wheel _ above'
  · cases sent

theorem strokes_keyRequests (button keycode : UInt8) (modifiers : List (UInt32 × UInt8)) :
    strokes button (keyRequests keycode modifiers) = [] := by
  apply strokes_eq_nil
  intro request sent
  right
  have kind : request.eventType = keyPress ∨ request.eventType = keyRelease := by
    simp only [keyRequests,List.mem_append,List.mem_map,List.mem_cons,List.not_mem_nil,or_false] at sent
    rcases sent with (⟨_,_,rfl⟩ | rfl | rfl) | ⟨_,_,rfl⟩
    · exact .inl rfl
    · exact .inl rfl
    · exact .inr rfl
    · exact .inr rfl
  rcases kind with same | same <;> rw [same] <;> decide

theorem prevButtonMask_keysymMap {server : XServer} {j next : XTestInjector} {map : KeysymMap}
    (read : j.keysymMap server = .ok (map,next)) : next.prevButtonMask = j.prevButtonMask := by
  unfold keysymMap at read
  cases cached : j.keysymToKeycode with
  | some entries =>
    rw [cached] at read
    rw [← (Prod.mk.inj (Except.ok.inj read)).2]
  | none =>
    rw [cached] at read
    cases reply : server.mapping with
    | error message =>
      rw [reply] at read
      cases read
    | ok mapping =>
      rw [reply] at read
      simp only at read
      split at read
      · cases read
      · rw [← (Prod.mk.inj (Except.ok.inj read)).2]

theorem inject_button {event : InputEvent} (button : event.eventType = .button) (server : XServer) (j : XTestInjector) :
    j.inject server event =
      ⟨.ok (),buttonRequests j.prevButtonMask event.buttonMask,{ j with prevButtonMask := event.buttonMask }⟩ := by
  rw [inject,button]

theorem inject_other {event : InputEvent} (other : event.eventType ≠ .button) (server : XServer) (j : XTestInjector) :
    (j.inject server event).injector.prevButtonMask = j.prevButtonMask ∧
      ∀ entry ∈ buttonMap, strokes entry.2 (j.inject server event).requests = [] := by
  unfold inject
  cases kind : event.eventType with
  | pointerMove =>
    have motion : motionNotify ≠ buttonPress ∧ motionNotify ≠ buttonRelease := by decide
    refine ⟨rfl,fun entry _ => strokes_eq_nil ?_⟩
    intro request sent
    rw [List.mem_singleton.mp sent]
    exact .inr motion
  | button => exact absurd kind other
  | wheel =>
    refine ⟨rfl,fun entry member => ?_⟩
    rw [strokes_append,strokes_wheelRequests member _ (by decide) (by decide),
      strokes_wheelRequests member _ (by decide) (by decide)]
    rfl
  | touch => exact ⟨rfl,fun _ _ => rfl⟩
  | pen => exact ⟨rfl,fun _ _ => rfl⟩
  | key =>
    simp only
    cases hidToKeysym event.keyCode with
    | none => exact ⟨rfl,fun _ _ => rfl⟩
    | some keysym =>
      simp only
      cases read : j.keysymMap server with
      | error e => exact ⟨rfl,fun _ _ => rfl⟩
      | ok entries =>
        obtain ⟨map,next⟩ := entries
        have kept := prevButtonMask_keysymMap read
        simp only
        cases lookup map keysym with
        | none => exact ⟨kept,fun _ _ => rfl⟩
        | some keycode => exact ⟨kept,fun entry _ => strokes_keyRequests _ _ _⟩

/-- An injection gives each button the stroke between the masks before and after it. -/
theorem strokes_inject (member : entry ∈ buttonMap) (server : XServer) (j : XTestInjector)
    (event : InputEvent) : strokes entry.2 (j.inject server event).requests =
      stroke j.prevButtonMask (j.inject server event).injector.prevButtonMask entry := by
  by_cases button : event.eventType = .button
  · rw [inject_button button]
    exact strokes_buttonRequests member _ _
  · obtain ⟨mask,none⟩ := inject_other button server j
    rw [none entry member,mask,stroke,if_pos rfl]

theorem follow_releaseAll (member : entry ∈ buttonMap) (j : XTestInjector) :
    follow (isDown j.prevButtonMask entry) (strokes entry.2 j.releaseAll.1) = some false := by
  unfold releaseAll
  by_cases idle : j.prevButtonMask &&& definedButtonBits = 0
  · have up : isDown j.prevButtonMask entry = false := by
      rw [← isDown_defined member,idle,isDown_zero]
    rw [if_pos idle,up]
    rfl
  · rw [if_neg idle]
    have only := filterMap_entry member (fun e => if isDown j.prevButtonMask e then some false else none)
    have released : strokes entry.2 (buttonMap.filterMap (fun entry =>
        if j.prevButtonMask &&& entry.1 = 0 then none else some (⟨buttonRelease,entry.2,0,0⟩ : FakeInput))) =
        (if isDown j.prevButtonMask entry then some false else none).toList := by
      rw [strokes,List.filterMap_filterMap]
      refine Eq.trans (List.filterMap_congr ?_) only
      intro e _
      by_cases down : j.prevButtonMask &&& e.1 = 0
      · simp [down,isDown]
      · simp [down,isDown,buttonPress,buttonRelease]
    rw [released]
    cases isDown j.prevButtonMask entry <;> rfl

end XTestInjector

end Streamhaul
