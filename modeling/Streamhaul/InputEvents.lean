import Streamhaul.ShpHeaders

/-! The sixteen-byte input event. -/
namespace Streamhaul

inductive EventType where
  | pointerMove
  | button
  | wheel
  | key
  | touch
  | pen
  deriving DecidableEq, Repr

def EventType.toU8 : EventType → UInt8
  | .pointerMove => 0
  | .button => 1
  | .wheel => 2
  | .key => 3
  | .touch => 4
  | .pen => 5

def EventType.fromU8 (byte : UInt8) : Except ProtocolError EventType :=
  if byte = 0 then .ok .pointerMove
  else if byte = 1 then .ok .button
  else if byte = 2 then .ok .wheel
  else if byte = 3 then .ok .key
  else if byte = 4 then .ok .touch
  else if byte = 5 then .ok .pen
  else .error (.invalidEventType byte)

structure InputEvent where
  eventType : EventType
  modifiers : UInt8
  pointerX : UInt16
  pointerY : UInt16
  buttonMask : UInt8
  keyCode : UInt16
  scrollX : Int16
  scrollY : Int16
  pressure : UInt8
  deriving DecidableEq

namespace InputEvent

def encode (event : InputEvent) : Bytes :=
  [event.eventType.toU8,event.modifiers] ++ be16 event.pointerX ++ be16 event.pointerY ++ [event.buttonMask] ++
    be16 event.keyCode ++ be16 event.scrollX.toUInt16 ++ be16 event.scrollY.toUInt16 ++ [event.pressure,0,0]

def decode (data : Bytes) : Except ProtocolError InputEvent :=
  match data with
  | ty :: modifiers :: px0 :: px1 :: py0 :: py1 :: buttonMask :: k0 :: k1 :: sx0 :: sx1 :: sy0 :: sy1 :: pressure
      :: r0 :: r1 :: _ =>
    if r0 ≠ 0 ∨ r1 ≠ 0 then .error .reservedBitsSet
    else
      match EventType.fromU8 ty with
      | .error e => .error e
      | .ok eventType => .ok {
          eventType := eventType
          modifiers := modifiers
          pointerX := UInt16.ofNat (fromBeBytes [px0,px1])
          pointerY := UInt16.ofNat (fromBeBytes [py0,py1])
          buttonMask := buttonMask
          keyCode := UInt16.ofNat (fromBeBytes [k0,k1])
          scrollX := (UInt16.ofNat (fromBeBytes [sx0,sx1])).toInt16
          scrollY := (UInt16.ofNat (fromBeBytes [sy0,sy1])).toInt16
          pressure := pressure }
  | _ => .error (.truncated inputEventLen data.length)

@[simp] theorem length_encode (event : InputEvent) : event.encode.length = inputEventLen := by
  simp [encode,inputEventLen]

theorem decode_encode (event : InputEvent) : decode event.encode = .ok event := by
  obtain ⟨eventType,modifiers,pointerX,pointerY,buttonMask,keyCode,scrollX,scrollY,pressure⟩ := event
  obtain ⟨px0,px1,xBytes⟩ := List.length_eq_two.mp (length_be16 pointerX)
  obtain ⟨py0,py1,yBytes⟩ := List.length_eq_two.mp (length_be16 pointerY)
  obtain ⟨k0,k1,keyBytes⟩ := List.length_eq_two.mp (length_be16 keyCode)
  obtain ⟨sx0,sx1,scrollXBytes⟩ := List.length_eq_two.mp (length_be16 scrollX.toUInt16)
  obtain ⟨sy0,sy1,scrollYBytes⟩ := List.length_eq_two.mp (length_be16 scrollY.toUInt16)
  have known : EventType.fromU8 eventType.toU8 = .ok eventType := by cases eventType <;> rfl
  simp only [encode,xBytes,yBytes,keyBytes,scrollXBytes,scrollYBytes,List.cons_append,List.nil_append,decode,known]
  rw [← xBytes,← yBytes,← keyBytes,← scrollXBytes,← scrollYBytes]
  simp

end InputEvent

/-- One inbound message as an input event; absent when it is not one. -/
def decodeInput (bytes : Bytes) : Option InputEvent :=
  if bytes.length ≠ inputEventLen then none
  else
    match InputEvent.decode bytes with
    | .ok event => some event
    | .error _ => none

theorem decodeInput_encode (event : InputEvent) : decodeInput event.encode = some event := by
  rw [decodeInput,if_neg (not_not.mpr (InputEvent.length_encode event)),InputEvent.decode_encode]

end Streamhaul
