import Streamhaul.Bytes
import Streamhaul.Delimited

/-! Frames of the control channel: a kind, a 16-bit length and a payload. A reader appends what the stream
brings to a buffer and takes whole frames off its front. -/
namespace Streamhaul

def controlHeaderLen : Nat := 3

inductive ControlError where
  | controlPayloadTooLarge (size : Nat)
  deriving DecidableEq

structure ControlFrame where
  kind : UInt8
  payload : Bytes
  deriving DecidableEq

def ControlFrame.consumed (frame : ControlFrame) : Nat := controlHeaderLen + frame.payload.length

def encodeControl (kind : UInt8) (payload : Bytes) : Except ControlError Bytes :=
  if payload.length ≤ u16Max then .ok (kind :: toBeBytes 2 payload.length ++ payload)
  else .error (.controlPayloadTooLarge payload.length)

def decodeControl (data : Bytes) : Except ControlError (Option ControlFrame) :=
  match slice? data 0 controlHeaderLen with
  | none => .ok none
  | some header =>
    let len := fromBeBytes (header.drop 1)
    match slice? data controlHeaderLen (controlHeaderLen + len) with
    | none => .ok none
    | some payload => .ok (some ⟨header.getD 0 0,payload⟩)

/-- The frame in front of a buffer and what is behind it. -/
def nextControl (buffer : Bytes) : Option (ControlFrame × Bytes) :=
  match decodeControl buffer with
  | .ok (some frame) => some (frame,buffer.drop frame.consumed)
  | _ => none

namespace ControlFrame

def Fits (frame : ControlFrame) : Prop := frame.payload.length ≤ u16Max

def wire (frame : ControlFrame) : Bytes := frame.kind :: (toBeBytes 2 frame.payload.length ++ frame.payload)

theorem encodeControl_ok_iff (frame : ControlFrame) (bytes : Bytes) :
    encodeControl frame.kind frame.payload = .ok bytes ↔ frame.Fits ∧ bytes = frame.wire := by
  by_cases fits : frame.payload.length ≤ u16Max
  · simp [encodeControl,fits,Fits,wire,eq_comm]
  · simp [encodeControl,fits,Fits]

theorem decodeControl_wire {frame : ControlFrame} (fits : frame.Fits) (rest : Bytes) :
    decodeControl (frame.wire ++ rest) = .ok (some frame) := by
  obtain ⟨kind,payload⟩ := frame
  have small : payload.length < 256 ^ 2 := Nat.lt_of_le_of_lt fits (by decide)
  have header := slice?_append [] (kind :: toBeBytes 2 payload.length) (payload ++ rest)
  have body := slice?_append (kind :: toBeBytes 2 payload.length) payload rest
  simp only [List.length_cons,length_toBeBytes,List.length_nil,List.nil_append,Nat.zero_add] at header body
  have bytes : wire ⟨kind,payload⟩ ++ rest = (kind :: toBeBytes 2 payload.length) ++ (payload ++ rest) := by
    simp [wire]
  simp only [decodeControl,bytes,controlHeaderLen]
  rw [header]
  simp only [List.drop_succ_cons,List.drop_zero,fromBeBytes_of_lt small]
  rw [body]
  rfl

theorem eq_wire_of_decodeControl {data : Bytes} {frame : ControlFrame} (read : decodeControl data = .ok (some frame)) :
    frame.Fits ∧ data = frame.wire ++ data.drop frame.consumed := by
  unfold decodeControl at read
  cases head : slice? data 0 controlHeaderLen with
  | none => simp [head] at read
  | some header =>
    obtain ⟨_,enough,cut⟩ := slice?_eq_some_iff.mp head
    simp only [head] at read
    cases body : slice? data controlHeaderLen (controlHeaderLen + fromBeBytes (header.drop 1)) with
    | none => simp only [body,Except.ok.injEq,reduceCtorEq] at read
    | some payload =>
      obtain ⟨_,long,taken⟩ := slice?_eq_some_iff.mp body
      simp only [body,Except.ok.injEq,Option.some.injEq] at read
      subst read
      have size : header.length = 3 := by
        rw [← cut]
        simp only [List.drop_zero,List.length_take]
        simp only [controlHeaderLen] at enough ⊢
        omega
      obtain ⟨kind,digits,rfl⟩ := List.exists_cons_of_length_eq_add_one size
      have two : digits.length = 2 := by simpa using size
      simp only [List.drop_succ_cons,List.drop_zero,Nat.add_sub_cancel_left] at taken long
      have length : payload.length = fromBeBytes digits := by
        rw [← taken,List.length_take,List.length_drop]
        omega
      have bound := fromBeBytes_lt digits
      have same := toBeBytes_fromBeBytes digits
      rw [two] at bound same
      refine ⟨by simp only [Fits,length,u16Max]; omega,?_⟩
      have front : data.take 3 = kind :: digits := by simpa [controlHeaderLen] using cut
      simp only [wire,consumed,List.getD_cons_zero,length,same,controlHeaderLen] at taken ⊢
      calc data = data.take 3 ++ data.drop 3 := (List.take_append_drop _ _).symm
        _ = kind :: digits ++ (payload ++ data.drop (3 + fromBeBytes digits)) := by
          rw [front,drop_split data 3 (fromBeBytes digits),taken]
        _ = kind :: (digits ++ payload) ++ data.drop (3 + fromBeBytes digits) := by simp

theorem reads_nextControl : Delimited.Reads nextControl Fits wire where
  proper frame _ := nofun
  exactly buffer frame rest := by
    constructor
    · intro found
      unfold nextControl at found
      cases read : decodeControl buffer with
      | error e => simp [read] at found
      | ok out =>
        cases out with
        | none => simp [read] at found
        | some first =>
          simp only [read,Option.some.injEq,Prod.mk.injEq] at found
          obtain ⟨rfl,rfl⟩ := found
          exact eq_wire_of_decodeControl read
    · rintro ⟨fits,rfl⟩
      have size : frame.wire.length = frame.consumed := by simp [wire,consumed,controlHeaderLen]; omega
      simp only [nextControl,decodeControl_wire fits]
      rw [← size,List.drop_left]

end ControlFrame

/-- Frames come out of their stream however it is cut into chunks, and what follows them stays in the buffer as
long as it is not a frame. -/
theorem control_stream (frames : List ControlFrame) (encoded : List Bytes)
    (accepted : List.Forall₂ (fun frame bytes => encodeControl frame.kind frame.payload = .ok bytes) frames encoded)
    (part : Bytes) (incomplete : decodeControl part = .ok none) (chunks : List Bytes)
    (stream : chunks.flatten = encoded.flatten ++ part) :
    Delimited.received nextControl [] chunks = frames ∧
      Machine.final (Delimited.feed nextControl) [] chunks = part := by
  have words : (∀ frame ∈ frames, frame.Fits) ∧ encoded.flatten = Delimited.wire ControlFrame.wire frames := by
    clear stream
    induction accepted with
    | nil => exact ⟨by simp,rfl⟩
    | cons first _ ih =>
      obtain ⟨fits,rfl⟩ := (ControlFrame.encodeControl_ok_iff _ _).mp first
      exact ⟨List.forall_mem_cons.mpr ⟨fits,ih.1⟩,by rw [List.flatten_cons,ih.2,Delimited.wire_cons]⟩
  have unfinished : Delimited.Unfinished ControlFrame.Fits ControlFrame.wire part := by
    rw [ControlFrame.reads_nextControl.unfinished_iff]
    simp [nextControl,incomplete]
  exact ControlFrame.reads_nextControl.received_wire words.1 unfinished (words.2 ▸ stream)

theorem control_stream_of_two : Delimited.received nextControl [] [[7,0],[2,1],[2,9,0,0,4],[0]] =
      [⟨7,[1,2]⟩,⟨9,[]⟩] ∧ Machine.final (Delimited.feed nextControl) [] [[7,0],[2,1],[2,9,0,0,4],[0]] = [4,0] :=
  control_stream [⟨7,[1,2]⟩,⟨9,[]⟩] [[7,0,2,1,2],[9,0,0]]
    (.cons (by decide +kernel) (.cons (by decide +kernel) .nil)) [4,0] (by decide +kernel) _ (by decide +kernel)

end Streamhaul
