import Streamhaul.HostVideo

/-! The browser's video path: parsing a datagram into a video frame, and the reassembler that
collects the fragments of one frame in order. Whatever was pushed before, the fragments of the
host are put together again. -/
namespace Streamhaul

/-- The fields of a decoded video header that scripts read. -/
structure WasmVideoHeader where
  frameId : Nat
  fragIndex : Nat
  totalFrags : Nat
  codec : Nat
  frameType : Nat
  marker : Bool
  deriving DecidableEq

def VideoHeader.toWasm (header : VideoHeader) : WasmVideoHeader where
  frameId := header.frameId.toUInt32.toNat
  fragIndex := header.fragIndex.toNat
  totalFrags := header.totalFrags.toNat
  codec := header.codec.toBits.toNat
  frameType := header.frameType.toBits.toNat
  marker := header.marker

structure ParsedVideoFrame where
  header : WasmVideoHeader
  payload : Bytes
  deriving DecidableEq

def channelVideo : Nat := 0

def parseVideoFrame (frame : Bytes) : Option ParsedVideoFrame :=
  if frame.length < commonHeaderLen + videoHeaderLen then none
  else
    match CommonHeader.decode (frame.take commonHeaderLen) with
    | .error _ => none
    | .ok common =>
      if common.channel.toU8.toNat ≠ channelVideo then none
      else
        match VideoHeader.decode ((frame.drop commonHeaderLen).take videoHeaderLen) with
        | .error _ => none
        | .ok header => some ⟨header.toWasm,frame.drop (commonHeaderLen + videoHeaderLen)⟩

structure CompleteAccessUnit where
  frameType : Nat
  codec : Nat
  payload : Bytes
  deriving DecidableEq

def maxFragments : Nat := 4096
def maxBufferedBytes : Nat := 16 * 1024 * 1024

structure VideoFragmentReassembler where
  currentFrameId : Option Nat
  expectedTotal : Nat
  nextIndex : Nat
  codec : Nat
  frameType : Nat
  chunks : List Bytes
  bufferedBytes : Nat
  deriving DecidableEq

namespace VideoFragmentReassembler

def idle : VideoFragmentReassembler := ⟨none,0,0,0,0,[],0⟩

def begin (header : WasmVideoHeader) : VideoFragmentReassembler :=
  ⟨some header.frameId,header.totalFrags,0,header.codec,header.frameType,[],0⟩

def concatChunks (r : VideoFragmentReassembler) : Bytes :=
  Chunks.writeAll (List.replicate r.bufferedBytes 0) 0 r.chunks

/-- Takes the bytes of a fragment that starts or continues the current frame. -/
def append (r : VideoFragmentReassembler) (frame : ParsedVideoFrame) : Option CompleteAccessUnit × VideoFragmentReassembler :=
  let bufferedBytes := r.bufferedBytes + frame.payload.length
  if maxBufferedBytes < bufferedBytes then (none,idle)
  else
    let r := { r with bufferedBytes := bufferedBytes, chunks := r.chunks ++ [frame.payload], nextIndex := r.nextIndex + 1 }
    if frame.header.marker then
      if r.nextIndex ≠ r.expectedTotal then (none,idle)
      else (some ⟨r.frameType,r.codec,r.concatChunks⟩,idle)
    else if r.expectedTotal ≤ r.nextIndex then (none,idle)
    else (none,r)

def push (r : VideoFragmentReassembler) (frame : ParsedVideoFrame) : Option CompleteAccessUnit × VideoFragmentReassembler :=
  let header := frame.header
  if header.totalFrags ≤ 1 then (some ⟨header.frameType,header.codec,frame.payload⟩,idle)
  else if maxFragments < header.totalFrags then (none,idle)
  else
    match r.currentFrameId with
    | none =>
      if header.fragIndex ≠ 0 then (none,r)
      else (begin header).append frame
    | some current =>
      if header.frameId = current ∧ header.totalFrags = r.expectedTotal ∧ header.fragIndex = r.nextIndex then r.append frame
      else if header.fragIndex = 0 then (begin header).append frame
      else (none,idle)

/-- What becomes of a fragment. -/
inductive Pushed (r : VideoFragmentReassembler) (frame : ParsedVideoFrame) :
    Option CompleteAccessUnit × VideoFragmentReassembler → Prop
  | whole (single : frame.header.totalFrags ≤ 1) :
      Pushed r frame (some ⟨frame.header.frameType,frame.header.codec,frame.payload⟩,idle)
  | dropped : Pushed r frame (none,idle)
  | stray (free : r.currentFrameId = none) : Pushed r frame (none,r)
  | started (head : frame.header.fragIndex = 0) : Pushed r frame ((begin frame.header).append frame)
  | continued (id : r.currentFrameId = some frame.header.frameId) (total : frame.header.totalFrags = r.expectedTotal)
      (index : frame.header.fragIndex = r.nextIndex) : Pushed r frame (r.append frame)

theorem push_pushed (r : VideoFragmentReassembler) (frame : ParsedVideoFrame) : Pushed r frame (r.push frame) := by
  unfold push
  dsimp only
  by_cases single : frame.header.totalFrags ≤ 1
  · rw [if_pos single]
    exact .whole single
  rw [if_neg single]
  by_cases many : maxFragments < frame.header.totalFrags
  · rw [if_pos many]
    exact .dropped
  rw [if_neg many]
  cases current : r.currentFrameId with
  | none =>
    dsimp only
    by_cases head : frame.header.fragIndex = 0
    · rw [if_neg (not_not_intro head)]
      exact .started head
    · rw [if_pos head]
      exact .stray current
  | some id =>
    dsimp only
    split
    · next consistent =>
      obtain ⟨rfl,total,index⟩ := consistent
      exact .continued current total index
    · split
      · next head => exact .started head
      · exact .dropped

/-- A frame is being collected only after its first fragment was taken. -/
def Started (r : VideoFragmentReassembler) : Prop := r.currentFrameId ≠ none → 0 < r.nextIndex

theorem Started.idle : idle.Started := fun busy => absurd rfl busy

theorem Started.append (r : VideoFragmentReassembler) (frame : ParsedVideoFrame) : (r.append frame).2.Started := by
  unfold VideoFragmentReassembler.append
  simp only
  split_ifs
  · exact Started.idle
  · exact Started.idle
  · exact Started.idle
  · exact Started.idle
  · exact fun _ => Nat.succ_pos _

theorem Started.push {r : VideoFragmentReassembler} (started : r.Started) (frame : ParsedVideoFrame) :
    (r.push frame).2.Started := by
  have pushed := push_pushed r frame
  generalize r.push frame = outcome at pushed
  cases pushed with
  | whole => exact Started.idle
  | dropped => exact Started.idle
  | stray => exact started
  | started => exact Started.append _ _
  | continued => exact Started.append _ _

end VideoFragmentReassembler

/-- A frame as its fragments carry it to the browser. -/
structure SplitFrame where
  frameId : Nat
  codec : Nat
  frameType : Nat
  parts : List Bytes

namespace SplitFrame

def fragment (f : SplitFrame) (k : Nat) (part : Bytes) : ParsedVideoFrame :=
  ⟨⟨f.frameId,k,f.parts.length,f.codec,f.frameType,k + 1 == f.parts.length⟩,part⟩

def unit (f : SplitFrame) : CompleteAccessUnit := ⟨f.frameType,f.codec,f.parts.flatten⟩

def collecting (f : SplitFrame) (done : List Bytes) : VideoFragmentReassembler :=
  ⟨some f.frameId,f.parts.length,done.length,f.codec,f.frameType,done,done.flatten.length⟩

open VideoFragmentReassembler (idle push append)

variable {f : SplitFrame} {done rest : List Bytes} {part : Bytes}

theorem concatChunks_collecting : (f.collecting done).concatChunks = done.flatten :=
  Chunks.writeAll_full List.length_replicate

theorem append_collecting (split : f.parts = done ++ part :: rest) (small : f.parts.flatten.length ≤ maxBufferedBytes) :
    (f.collecting done).append (f.fragment done.length part) =
      if rest = [] then (some f.unit,idle) else (none,f.collecting (done ++ [part])) := by
  have bytes : done.flatten.length + part.length ≤ maxBufferedBytes := by
    rw [split] at small
    simp only [List.flatten_append,List.flatten_cons,List.length_append] at small
    omega
  have next : { f.collecting done with
      bufferedBytes := done.flatten.length + part.length, chunks := done ++ [part], nextIndex := done.length + 1 } =
      f.collecting (done ++ [part]) := by
    simp [collecting]
  have total : f.parts.length = done.length + 1 + rest.length := by
    rw [split,List.length_append,List.length_cons]
    omega
  have marker : (f.fragment done.length part).header.marker = decide (rest = []) := by
    rw [Bool.eq_iff_iff,decide_eq_true_eq,← List.length_eq_zero_iff]
    simp only [fragment,beq_iff_eq]
    omega
  have room : ¬maxBufferedBytes < (f.collecting done).bufferedBytes + (f.fragment done.length part).payload.length :=
    Nat.not_lt.mpr bytes
  have step : (f.collecting done).append (f.fragment done.length part) =
      if (f.fragment done.length part).header.marker then
        if (f.collecting (done ++ [part])).nextIndex ≠ f.parts.length then (none,idle)
        else (some ⟨f.frameType,f.codec,(f.collecting (done ++ [part])).concatChunks⟩,idle)
      else if f.parts.length ≤ (f.collecting (done ++ [part])).nextIndex then (none,idle)
      else (none,f.collecting (done ++ [part])) := by
    rw [← next]
    exact if_neg room
  have index : (f.collecting (done ++ [part])).nextIndex = done.length + 1 := List.length_append
  rw [step,marker,concatChunks_collecting,index]
  cases rest with
  | nil =>
    have last : ¬done.length + 1 ≠ f.parts.length := fun different => different total.symm
    rw [if_pos (by simp),if_neg last,if_pos rfl,unit,split]
  | cons following rest =>
    have more : ¬f.parts.length ≤ done.length + 1 := by
      rw [total,List.length_cons]
      omega
    rw [if_neg (by simp),if_neg more,if_neg (List.cons_ne_nil _ _)]

theorem push_collecting (several : 1 < f.parts.length)
    (few : f.parts.length ≤ maxFragments) :
    (f.collecting done).push (f.fragment done.length part) = (f.collecting done).append (f.fragment done.length part) := by
  unfold VideoFragmentReassembler.push
  exact (if_neg (Nat.not_le.mpr several)).trans ((if_neg (Nat.not_lt.mpr few)).trans (if_pos ⟨rfl,rfl,rfl⟩))

theorem push_first {r : VideoFragmentReassembler} (started : r.Started) (several : 1 < f.parts.length)
    (few : f.parts.length ≤ maxFragments) :
    r.push (f.fragment 0 part) = (f.collecting []).append (f.fragment 0 part) := by
  unfold VideoFragmentReassembler.push
  simp only
  refine (if_neg (Nat.not_le.mpr several)).trans ((if_neg (Nat.not_lt.mpr few)).trans ?_)
  cases current : r.currentFrameId with
  | none => rfl
  | some id =>
    have taken := started (by simp [current])
    simp only
    rw [if_neg]
    · rfl
    · rintro ⟨-,-,index⟩
      have zero : 0 = r.nextIndex := index
      omega

def remaining (f : SplitFrame) (done rest : List Bytes) : List ParsedVideoFrame :=
  rest.mapIdx (fun i part => f.fragment (done.length + i) part)

theorem remaining_cons : f.remaining done (part :: rest) =
    f.fragment done.length part :: f.remaining (done ++ [part]) rest := by
  simp only [remaining,List.mapIdx_cons,Nat.add_zero,List.length_append,List.length_singleton,Nat.add_assoc,Nat.add_comm 1]

/-- The answers to pushing frames one after the other. -/
def answers (r : VideoFragmentReassembler) (frames : List ParsedVideoFrame) : List (Option CompleteAccessUnit) :=
  (Machine.trace push r frames).map Machine.Event.response

theorem answers_cons (r : VideoFragmentReassembler) (frame : ParsedVideoFrame) (frames : List ParsedVideoFrame) :
    answers r (frame :: frames) = (r.push frame).1 :: answers (r.push frame).2 frames := rfl

theorem answers_collecting (split : f.parts = done ++ part :: rest) (several : 1 < f.parts.length)
    (few : f.parts.length ≤ maxFragments) (small : f.parts.flatten.length ≤ maxBufferedBytes) :
    answers (f.collecting done) (f.remaining done (part :: rest)) = List.replicate rest.length none ++ [some f.unit] := by
  induction rest generalizing done part with
  | nil =>
    rw [remaining_cons,answers_cons,push_collecting several few,append_collecting split small]
    rfl
  | cons following rest ih =>
    have next : f.parts = (done ++ [part]) ++ following :: rest := by simp [split]
    rw [remaining_cons,answers_cons,push_collecting several few,append_collecting split small,
      if_neg (List.cons_ne_nil _ _),ih next]
    rfl

theorem answers_fragments {r : VideoFragmentReassembler} (started : r.Started) (nonempty : f.parts ≠ [])
    (few : f.parts.length ≤ maxFragments) (small : f.parts.flatten.length ≤ maxBufferedBytes) :
    answers r (f.remaining [] f.parts) = List.replicate (f.parts.length - 1) none ++ [some f.unit] := by
  cases split : f.parts with
  | nil => exact absurd split nonempty
  | cons part rest =>
    rw [remaining_cons,answers_cons]
    cases rest with
    | nil =>
      have single : f.parts.length ≤ 1 := by rw [split,List.length_singleton]
      have whole : r.push (f.fragment ([] : List Bytes).length part) = (some f.unit,idle) := by
        unfold VideoFragmentReassembler.push unit
        rw [split,List.flatten_singleton]
        exact if_pos single
      rw [whole]
      rfl
    | cons following rest =>
      have several : 1 < f.parts.length := by simp [split]
      have first : r.push (f.fragment ([] : List Bytes).length part) = (none,f.collecting [part]) := by
        have appended : (f.collecting []).append (f.fragment ([] : List Bytes).length part) = _ := append_collecting split small
        rw [if_neg (List.cons_ne_nil _ _)] at appended
        exact (push_first started several few).trans appended
      have later : answers (f.collecting [part]) (f.remaining [part] (following :: rest)) = _ :=
        answers_collecting split several few small
      rw [first,List.nil_append,later]
      rfl

end SplitFrame

section Delivery

variable (seq : UInt16) (frameId : UInt32) (ts : UInt64) (frameType : FrameType) {payload : Bytes}

def hostFrame (payload : Bytes) (size n : Nat) : SplitFrame :=
  ⟨frameId.toNat,Codec.h264.toBits.toNat,frameType.toBits.toNat,Chunks.pieces size payload n⟩

theorem parseVideoFrame_hostDatagram {size n i : Nat} (small : frameId.toUInt64 ≤ maxFrameId)
    (few : n ≤ 255) (inside : i < n) :
    parseVideoFrame (hostDatagram seq frameId ts frameType payload size n i) =
      some ((hostFrame frameId frameType payload size n).fragment i (Chunks.chunk size payload i)) := by
  have front : (hostDatagram seq frameId ts frameType payload size n i).take commonHeaderLen =
      (hostCommon (seq + UInt16.ofNat i) ts (Chunks.chunk size payload i) (UInt8.ofNat i) (UInt8.ofNat n)).encode := by
    rw [hostDatagram,List.append_assoc,List.take_left' (CommonHeader.length_encode _)]
  have behind : (hostDatagram seq frameId ts frameType payload size n i).drop commonHeaderLen =
      (hostVideo frameId ts frameType (UInt8.ofNat i) (UInt8.ofNat n)).wire ++ Chunks.chunk size payload i := by
    rw [hostDatagram,List.append_assoc,List.drop_left' (CommonHeader.length_encode _)]
  have long : ¬(hostDatagram seq frameId ts frameType payload size n i).length < commonHeaderLen + videoHeaderLen := by
    simp [hostDatagram]
  have common := CommonHeader.decode_encode
    (hostCommon (seq + UInt16.ofNat i) ts (Chunks.chunk size payload i) (UInt8.ofNat i) (UInt8.ofNat n)) []
  have video : VideoHeader.decode ((hostVideo frameId ts frameType (UInt8.ofNat i) (UInt8.ofNat n)).wire ++ []) = _ :=
    VideoHeader.decode_wire small UInt8.zero_le []
  have total : (UInt8.ofNat n).toNat = n := UInt8.toNat_ofNat_of_lt' (Nat.lt_succ_of_le few)
  have index : (UInt8.ofNat i).toNat = i := UInt8.toNat_ofNat_of_lt' (inside.trans (Nat.lt_succ_of_le few))
  rw [List.append_nil] at common video
  unfold parseVideoFrame
  rw [if_neg long,front,common,← List.drop_drop,behind,List.take_left' (VideoHeader.length_wire _),
    List.drop_left' (VideoHeader.length_wire _),video]
  simp [hostCommon,hostVideo,VideoHeader.toWasm,hostFrame,SplitFrame.fragment,index,total,lastFragment_eq few inside,
    ChannelId.toU8,channelVideo]

theorem parsed_fragments {size n : Nat} (small : frameId.toUInt64 ≤ maxFrameId) (few : n ≤ 255) :
    ((List.range n).map (hostDatagram seq frameId ts frameType payload size n)).map parseVideoFrame =
      ((hostFrame frameId frameType payload size n).remaining [] (Chunks.pieces size payload n)).map some := by
  apply List.ext_getElem
  · simp [SplitFrame.remaining]
  · intro i inside _
    have here : i < n := by simpa using inside
    simp only [List.getElem_map,List.getElem_range,SplitFrame.remaining,List.getElem_mapIdx,List.length_nil,Nat.zero_add,
      Chunks.pieces]
    exact parseVideoFrame_hostDatagram seq frameId ts frameType small few here

/-- The host can not make the browser run into its byte limit. -/
theorem length_le_maxBufferedBytes {maxFragmentBytes : Nat}
    (short : payload.length ≤ 255 * hostChunkSize maxFragmentBytes) : payload.length ≤ maxBufferedBytes := by
  have bounded := hostChunkSize_le maxFragmentBytes
  simp only [u16Max] at bounded
  simp only [maxBufferedBytes]
  omega

/-- Whatever the browser was fed before, it answers the fragments of a host frame with that frame. -/
theorem host_frame_delivered (earlier : List ParsedVideoFrame) {payload : Bytes} {maxFragmentBytes : Nat} {frags : List Bytes}
    (built : buildShpVideoFragments seq frameId ts frameType payload maxFragmentBytes = .ok frags) :
    ∃ parsed, frags.map parseVideoFrame = parsed.map some ∧
      SplitFrame.answers (Machine.final VideoFragmentReassembler.push .idle earlier) parsed =
        List.replicate (frags.length - 1) none ++
          [some ⟨frameType.toBits.toNat,Codec.h264.toBits.toNat,payload⟩] := by
  obtain ⟨⟨short,small⟩,rfl⟩ := (buildShpVideoFragments_ok_iff seq frameId ts frameType payload maxFragmentBytes frags).mp built
  have positive := hostChunkSize_pos maxFragmentBytes
  have few := (hostTotal_le_iff payload positive).mpr short
  have nonempty := hostTotal_pos payload (hostChunkSize maxFragmentBytes)
  have bytes := length_le_maxBufferedBytes short
  have covers : payload.length ≤ hostTotal payload (hostChunkSize maxFragmentBytes) * hostChunkSize maxFragmentBytes :=
    (Chunks.length_le_count positive payload).trans (Nat.mul_le_mul_right _ (le_max_left _ _))
  generalize hostTotal payload (hostChunkSize maxFragmentBytes) = n at *
  have started := Machine.final_invariant VideoFragmentReassembler.push (fun _ _ => True)
    VideoFragmentReassembler.Started (fun r frame _ started => started.push frame) .idle earlier .idle (fun _ _ => trivial)
  refine ⟨_,parsed_fragments seq frameId ts frameType small few,?_⟩
  have whole := Chunks.flatten_pieces covers
  have count : (hostFrame frameId frameType payload (hostChunkSize maxFragmentBytes) n).parts.length = n :=
    Chunks.length_pieces _ _ _
  have delivered := SplitFrame.answers_fragments (f := hostFrame frameId frameType payload (hostChunkSize maxFragmentBytes) n)
    started (List.ne_nil_of_length_pos (nonempty.trans_eq count.symm)) (by rw [count,maxFragments]; omega)
    (by rw [hostFrame,whole]; exact bytes)
  rw [count,SplitFrame.unit,hostFrame,whole] at delivered
  rw [List.length_map,List.length_range]
  exact delivered

end Delivery

/-- A frame of two fragments, behind an abandoned first fragment with the same frame id and count. -/
theorem frame_delivered_after_partial :
    ∃ frags parsed, buildShpVideoFragments 0 7 0 .idr [1,2,3] 2 = .ok frags ∧ frags.map parseVideoFrame = parsed.map some ∧
      SplitFrame.answers (Machine.final VideoFragmentReassembler.push .idle [⟨⟨7,0,2,0,1,false⟩,[9]⟩]) parsed =
        List.replicate (frags.length - 1) none ++ [some ⟨1,0,[1,2,3]⟩] := by
  have built := (buildShpVideoFragments_ok_iff 0 7 0 .idr [1,2,3] 2 _).mpr ⟨⟨by decide,by decide⟩,rfl⟩
  obtain ⟨parsed,all,answered⟩ := host_frame_delivered 0 7 0 .idr [⟨⟨7,0,2,0,1,false⟩,[9]⟩] built
  exact ⟨_,parsed,built,all,answered⟩

end Streamhaul
