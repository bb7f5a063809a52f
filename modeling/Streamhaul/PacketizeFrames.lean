import Streamhaul.Machine
import Streamhaul.Packetize

/-! What fragmentation emits, and how the reassembler collects the fragments of one frame. For a
frame, the reassembler is a set of indices that have arrived: its buffer is a function of this
set, and the frame is delivered when the set is full. -/
namespace Streamhaul

/-- A loop whose rounds succeed on a condition, with a known result. -/
theorem mapM_ok_iff {ε α β : Type} {f : α → Except ε β} {good : α → Prop} {g : α → β}
    (spec : ∀ x y, f x = .ok y ↔ good x ∧ y = g x) (xs : List α) (ys : List β) :
    xs.mapM f = .ok ys ↔ (∀ x ∈ xs, good x) ∧ ys = xs.map g := by
  induction xs generalizing ys with
  | nil =>
    simp only [List.mapM_nil,List.not_mem_nil,false_implies,implies_true,true_and,List.map_nil]
    exact ⟨fun same => (Except.ok.inj same).symm,fun same => same ▸ rfl⟩
  | cons x rest ih =>
    rw [List.mapM_cons,List.forall_mem_cons,List.map_cons]
    constructor
    · intro built
      cases first : f x with
      | error e => simp [first,bind,Except.bind] at built
      | ok y =>
        cases others : rest.mapM f with
        | error e => simp [first,others,bind,Except.bind] at built
        | ok zs =>
          obtain ⟨here,rfl⟩ := (spec x y).mp first
          obtain ⟨later,rfl⟩ := (ih zs).mp others
          simp only [first,others,bind,Except.bind,pure,Except.pure] at built
          exact ⟨⟨here,later⟩,(Except.ok.inj built).symm⟩
    · rintro ⟨⟨here,later⟩,rfl⟩
      rw [(spec x (g x)).mpr ⟨here,rfl⟩,(ih _).mpr ⟨later,rfl⟩]
      rfl

section Fragment

variable (packet : EncodedPacket) (seqStart : UInt16) {data : Bytes}

theorem masked_le (id : UInt64) : id &&& maxFrameId ≤ maxFrameId := by
  rw [UInt64.le_iff_toNat_le,UInt64.toNat_and]
  exact Nat.and_le_right

def fragmentDatagram (chunkSize numFrags i : Nat) : Bytes :=
  (fragmentCommon packet seqStart chunkSize numFrags i).encode ++ (fragmentVideo packet numFrags i).wire ++
    fragmentChunk packet.data chunkSize i

theorem buildFragment_ok_iff (chunkSize numFrags i : Nat) (datagram : Bytes) :
    buildFragment packet seqStart chunkSize numFrags i = .ok datagram ↔
      (videoHeaderLen + (fragmentChunk packet.data chunkSize i).length ≤ u16Max ∧ i ≤ 255) ∧
        datagram = fragmentDatagram packet seqStart chunkSize numFrags i := by
  have encoded : (fragmentVideo packet numFrags i).encode = .ok (fragmentVideo packet numFrags i).wire :=
    VideoHeader.encode_eq (masked_le _) (UInt8.zero_le)
  simp only [buildFragment,encoded]
  split_ifs with large many
  · simp only [false_iff]
    omega
  · simp only [false_iff]
    omega
  · rw [Except.ok.injEq,eq_comm]
    exact ⟨fun same => ⟨⟨by omega,by omega⟩,same⟩,fun built => built.2⟩

/-- Saturated bounds cut out the plain chunk of a frame that fits the address space. -/
theorem fragmentChunk_eq {size i : Nat} (fits : data.length ≤ u64Max) (inside : i * size ≤ data.length) :
    fragmentChunk data size i = Chunks.chunk size data i := by
  have start : satMul u64Max i size = i * size := Nat.min_eq_left (inside.trans fits)
  have stop : min (satMul u64Max (i + 1) size) data.length = min ((i + 1) * size) data.length := by
    unfold satMul
    omega
  simp only [fragmentChunk,Chunks.chunk]
  rw [start,stop,List.take_eq_take_iff,List.length_drop,Nat.succ_mul]
  omega

/-- How a frame is cut: `n` chunks of one size cover it, and each starts inside it. -/
structure Cut (data : Bytes) (size n : Nat) : Prop where
  positive : 0 < size
  nonempty : 0 < n
  few : n ≤ 255
  covers : data.length ≤ n * size
  tight : ∀ i < n, i * size ≤ data.length
  narrow : ∀ i < n, videoHeaderLen + (Chunks.chunk size data i).length ≤ u16Max
  total : n = max (Chunks.count size data) 1

theorem numFrags_spec (data : Bytes) {size : Nat} (positive : 0 < size) :
    let n := max (Chunks.count size data) 1
    0 < n ∧ data.length ≤ n * size ∧ ∀ i < n, i * size ≤ data.length := by
  refine ⟨Nat.lt_of_lt_of_le Nat.one_pos (le_max_right _ _),?_,fun i inside => ?_⟩
  · exact (Chunks.length_le_count positive data).trans (Nat.mul_le_mul_right size (le_max_left _ _))
  · rcases lt_max_iff.mp inside with here | first
    · exact (Chunks.lt_length_of_lt_count here).le
    · rw [Nat.lt_one_iff.mp first,Nat.zero_mul]
      exact Nat.zero_le _

/-- A frame whose fragments all fit a datagram fits the address space. -/
theorem length_le_of_narrow {size n : Nat} (few : n ≤ 255) (covers : data.length ≤ n * size)
    (nonempty : 0 < n) (narrow : ∀ i < n, videoHeaderLen + (fragmentChunk data size i).length ≤ u16Max) :
    data.length ≤ u64Max := by
  have first := narrow 0 nonempty
  simp only [fragmentChunk,satMul,Nat.zero_mul,Nat.zero_min,List.drop_zero,Nat.sub_zero,Nat.zero_add,Nat.one_mul,
    List.length_take] at first
  have total : n * size ≤ 255 * size := Nat.mul_le_mul_right size few
  simp only [u16Max,u64Max,videoHeaderLen] at first ⊢
  omega

theorem fragment_ok {maxDatagram : Nat} {frags : List Bytes} (built : fragment packet seqStart maxDatagram = .ok frags) :
    ∃ size n, maxDatagram = combinedHeader + size ∧ Cut packet.data size n ∧
      frags = (List.range n).map (fragmentDatagram packet seqStart size n) := by
  unfold fragment at built
  by_cases small : maxDatagram ≤ combinedHeader
  · rw [if_pos small] at built
    cases built
  · rw [if_neg small] at built
    have positive : 0 < maxDatagram - combinedHeader := by omega
    obtain ⟨nonempty,covers,tight⟩ := numFrags_spec packet.data positive
    simp only [← Chunks.max_count_one positive] at built nonempty covers tight
    generalize total : max (Chunks.count (maxDatagram - combinedHeader) packet.data) 1 = n at *
    split_ifs at built with many
    obtain ⟨good,rfl⟩ := (mapM_ok_iff (buildFragment_ok_iff packet seqStart _ n) _ _).mp built
    have narrow : ∀ i < n, _ := fun i inside => (good i (List.mem_range.mpr inside)).1
    have fits := length_le_of_narrow (by omega) covers nonempty narrow
    refine ⟨maxDatagram - combinedHeader,n,by omega,⟨positive,nonempty,by omega,covers,tight,?_,total.symm⟩,rfl⟩
    intro i inside
    rw [← fragmentChunk_eq fits (tight i inside)]
    exact narrow i inside

theorem Cut.fits {size n : Nat} (cut : Cut data size n) : data.length ≤ u64Max := by
  have first := cut.narrow 0 cut.nonempty
  have total : n * size ≤ 255 * size := Nat.mul_le_mul_right size cut.few
  have covers := cut.covers
  rw [Chunks.length_chunk] at first
  simp only [u16Max,u64Max,videoHeaderLen] at first ⊢
  omega

theorem Cut.chunk_eq {size n i : Nat} (cut : Cut data size n) (inside : i < n) :
    fragmentChunk data size i = Chunks.chunk size data i := fragmentChunk_eq cut.fits (cut.tight i inside)

theorem low32_eq (ts : UInt64) : (ts &&& 0xFFFFFFFF) % 0x100000000 = ts % 0x100000000 := by
  apply UInt64.toNat_inj.mp
  have mask : ts.toNat &&& 0xFFFFFFFF = ts.toNat % 0x100000000 := Nat.and_two_pow_sub_one_eq_mod ts.toNat 32
  simp only [UInt64.toNat_mod,UInt64.toNat_and,UInt64.reduceToNat]
  omega

theorem low24_eq (id : UInt64) : id &&& maxFrameId = id % 0x1000000 := by
  apply UInt64.toNat_inj.mp
  have mask : id.toNat &&& 0xFFFFFF = id.toNat % 0x1000000 := Nat.and_two_pow_sub_one_eq_mod id.toNat 24
  simp only [maxFrameId,UInt64.toNat_mod,UInt64.toNat_and,UInt64.reduceToNat]
  omega

end Fragment

theorem videoFragment_eq {datagram : Bytes} {common : CommonHeader} {video : VideoHeader}
    (first : CommonHeader.decode datagram = .ok common) (channel : common.channel = .video)
    (second : VideoHeader.decode (datagram.drop commonHeaderLen) = .ok video) (nonzero : video.totalFrags ≠ 0)
    (inside : ¬video.totalFrags ≤ video.fragIndex) : videoFragment datagram = some (common,video) := by
  simp only [videoFragment,first,second,channel,ne_eq,not_true_eq_false,if_false,if_neg nonzero,if_neg inside]

/-- A frame as the datagrams carry it. -/
structure VideoFrame where
  parts : List Bytes
  codec : Codec
  frameType : FrameType
  frameId : UInt64
  captureTsUs : UInt64

namespace VideoFrame

def packet (f : VideoFrame) : EncodedPacket := ⟨f.parts.flatten,f.codec,f.frameId,f.captureTsUs,f.frameType⟩

def key (f : VideoFrame) : Nat := (f.frameId &&& maxFrameId).toNat

def buffer (f : VideoFrame) (present : Finset Nat) : FrameBuffer where
  slots := Chunks.slots f.parts present
  totalFrags := UInt8.ofNat f.parts.length
  received := present.card
  codec := f.codec
  frameType := f.frameType
  frameId := f.frameId
  captureTsUs := f.captureTsUs

structure Carried (f : VideoFrame) (i : Nat) (datagram : Bytes) (common : CommonHeader) (video : VideoHeader) : Prop where
  headers : videoFragment datagram = some (common,video)
  frameId : video.frameId = f.frameId
  fragIndex : video.fragIndex.toNat = i
  totalFrags : video.totalFrags.toNat = f.parts.length
  codec : video.codec = f.codec
  frameType : video.frameType = f.frameType
  timestamp : common.timestampUs = f.captureTsUs
  long : combinedHeader ≤ datagram.length
  part : f.parts[i]? = some (datagram.drop combinedHeader)

variable {f : VideoFrame} {i : Nat} {datagram : Bytes} {common : CommonHeader} {video : VideoHeader}
  {present : Finset Nat}

namespace Carried

theorem inside (carried : f.Carried i datagram common video) : i < f.parts.length :=
  (List.getElem?_eq_some_iff.mp carried.part).1

theorem few (carried : f.Carried i datagram common video) : f.parts.length ≤ 255 := by
  have bound := video.totalFrags.toNat_lt
  rw [carried.totalFrags] at bound
  omega

theorem total (carried : f.Carried i datagram common video) : video.totalFrags = UInt8.ofNat f.parts.length := by
  rw [← carried.totalFrags,UInt8.ofNat_toNat]

theorem key_eq (carried : f.Carried i datagram common video) : frameKey video = f.key := by
  rw [frameKey,carried.frameId,key]

theorem new_eq (carried : f.Carried i datagram common video) : FrameBuffer.new common video = f.buffer ∅ := by
  rw [FrameBuffer.new,carried.totalFrags,carried.total,carried.codec,carried.frameType,carried.frameId,
    carried.timestamp,buffer,Chunks.slots_empty,Finset.card_empty]

theorem store_eq (carried : f.Carried i datagram common video) (within : present ⊆ Finset.range f.parts.length) :
    (f.buffer present).store video datagram = if i ∈ present then none else some (f.buffer (insert i present)) := by
  have inRange : ¬(f.buffer present).totalFrags ≤ video.fragIndex := by
    have inside := carried.inside
    rw [UInt8.le_iff_toNat_le]
    simp only [buffer,← carried.total,carried.totalFrags,carried.fragIndex]
    omega
  have counted : present.card ≤ f.parts.length := by
    simpa using Finset.card_le_card within
  rw [FrameBuffer.store,if_neg (by simp [buffer,carried.total]),if_neg inRange,carried.fragIndex]
  simp only [buffer]
  rw [Chunks.getElem?_slots carried.part]
  by_cases here : i ∈ present
  · simp only [if_pos here]
  · have few := carried.few
    simp only [if_neg here]
    rw [if_neg (Nat.not_lt.mpr carried.long),Chunks.set_slots carried.part,Finset.card_insert_of_notMem here,
      satAdd_of_le (by simp only [u64Max]; omega)]

end Carried

/-- The reassembler has exactly these fragments of the frame. -/
def Holds (f : VideoFrame) (r : Reassembler) (present : Finset Nat) : Prop :=
  r.buffers.get? f.key = if present = ∅ then none else some (f.buffer present)

end VideoFrame

namespace FrameBuffer

theorem store_spec {buf buf' : FrameBuffer} {video : VideoHeader} {datagram : Bytes}
    (stored : buf.store video datagram = some buf') :
    video.totalFrags = buf.totalFrags ∧ buf.slots[video.fragIndex.toNat]? = some none ∧
      buf' = { buf with
        slots := buf.slots.set video.fragIndex.toNat (some (datagram.drop combinedHeader))
        received := satAdd u64Max buf.received 1 } := by
  unfold store at stored
  split at stored
  · cases stored
  next same =>
  split at stored
  · cases stored
  split at stored
  · cases stored
  · cases stored
  next empty =>
  split at stored
  · cases stored
  exact ⟨not_not.mp same,empty,(Option.some.inj stored).symm⟩

end FrameBuffer

namespace Reassembler

variable {buffers : AssocMap Nat FrameBuffer} {key : Nat}

theorem makeRoom_known (known : buffers.contains key = true) :
    makeRoom buffers key = buffers := by
  simp [makeRoom,known]

theorem makeRoom_uncrowded
    (room : buffers.contains key = true ∨ buffers.size < maxBufferedFrames) : makeRoom buffers key = buffers := by
  rcases room with known | free
  · exact makeRoom_known known
  · rw [makeRoom,if_neg (by omega)]

theorem get?_makeRoom (buffers : AssocMap Nat FrameBuffer) (key : Nat) :
    (makeRoom buffers key).get? key = buffers.get? key := by
  cases known : buffers.contains key with
  | true => rw [makeRoom_known known]
  | false =>
    have absent : buffers.get? key = none := by
      simpa [AssocMap.contains] using known
    unfold makeRoom
    split
    · split
      · rw [AssocMap.get?_erase,absent,ite_self]
      · rfl
    · rfl

variable {f : VideoFrame} {i : Nat} {datagram : Bytes} {common : CommonHeader} {video : VideoHeader}
  {present : Finset Nat} {r : Reassembler}

theorem entry_held (holds : f.Holds r present) :
    (entry (makeRoom r.buffers f.key) f.key (f.buffer ∅)).1 = f.buffer present := by
  unfold entry
  rw [get?_makeRoom,holds]
  by_cases none : present = ∅
  · rw [if_pos none,none]
  · rw [if_neg none]

theorem ingest_carried (carried : f.Carried i datagram common video) (holds : f.Holds r present)
    (within : present ⊆ Finset.range f.parts.length) :
    let room := (entry (makeRoom r.buffers f.key) f.key (f.buffer ∅)).2
    r.ingest datagram =
      if i ∈ present then (none,r)
      else if insert i present = Finset.range f.parts.length then (some f.packet,⟨room.erase f.key⟩)
      else (none,⟨room.insert f.key (f.buffer (insert i present))⟩) := by
  intro room
  have inside := Finset.mem_range.mpr carried.inside
  simp only [ingest,carried.headers,carried.key_eq,carried.new_eq,entry_held holds,carried.store_eq within]
  by_cases here : i ∈ present
  · have known : r.buffers.get? f.key = some (f.buffer present) := by
      rw [holds,if_neg (Finset.ne_empty_of_mem here)]
    have kept : entry (makeRoom r.buffers f.key) f.key (f.buffer ∅) = (f.buffer present,r.buffers) := by
      rw [makeRoom_known (by rw [AssocMap.contains,known]; rfl),entry,known]
    simp only [if_pos here,kept]
  · have full : (f.buffer (insert i present)).received = (f.buffer (insert i present)).totalFrags.toNat ↔
        insert i present = Finset.range f.parts.length := by
      rw [← Chunks.card_eq_iff (Finset.insert_subset inside within)]
      simp only [VideoFrame.buffer,← carried.total,carried.totalFrags]
    simp only [if_neg here,full]
    by_cases done : insert i present = Finset.range f.parts.length
    · rw [if_pos done,if_pos done]
      simp only [FrameBuffer.packet,VideoFrame.buffer,done,Chunks.reduceOption_slots_range,VideoFrame.packet,room]
    · rw [if_neg done,if_neg done]

theorem ingest_collects (carried : f.Carried i datagram common video) (holds : f.Holds r present)
    (within : present ⊆ Finset.range f.parts.length) :
    (r.ingest datagram).1 = (if (Chunks.collect f.parts.length present i).1 then some f.packet else none) ∧
      f.Holds (r.ingest datagram).2 (Chunks.collect f.parts.length present i).2 := by
  rw [ingest_carried carried holds within,Chunks.collect]
  by_cases here : i ∈ present
  · rw [if_pos here,if_pos here]
    exact ⟨rfl,holds⟩
  · rw [if_neg here,if_neg here]
    by_cases done : insert i present = Finset.range f.parts.length
    · rw [if_pos done,if_pos done]
      refine ⟨rfl,?_⟩
      rw [VideoFrame.Holds,if_pos rfl,AssocMap.get?_erase,if_pos rfl]
    · rw [if_neg done,if_neg done]
      refine ⟨rfl,?_⟩
      rw [VideoFrame.Holds,if_neg (Finset.insert_ne_empty _ _),AssocMap.get?_insert,if_pos rfl]

/-- The frame a datagram belongs to, when it is a video fragment at all. -/
def fragmentKey (datagram : Bytes) : Option Nat := (videoFragment datagram).map (fun headers => frameKey headers.2)

/-- The datagram finds its frame buffered, or room for it. -/
def Uncrowded (r : Reassembler) (datagram : Bytes) : Prop :=
  ∀ key, fragmentKey datagram = some key → r.buffers.contains key = true ∨ r.buffers.size < maxBufferedFrames

theorem get?_entry_of_ne {key other : Nat} (ne : other ≠ key) (fresh : FrameBuffer) :
    (entry buffers key fresh).2.get? other = buffers.get? other := by
  unfold entry
  split
  · rfl
  · rw [AssocMap.get?_insert,if_neg ne]

theorem get?_ingest_other (other : fragmentKey datagram ≠ some key) :
    (r.ingest datagram).2.buffers.get? key = r.buffers.get? key ∨
      (∃ key', fragmentKey datagram = some key' ∧
        (r.ingest datagram).2.buffers.get? key = (makeRoom r.buffers key').get? key) := by
  unfold fragmentKey at other ⊢
  cases found : videoFragment datagram with
  | none =>
    rw [ingest,found]
    exact .inl rfl
  | some headers =>
    obtain ⟨common,video⟩ := headers
    have ne : key ≠ frameKey video := by
      rintro rfl
      rw [found] at other
      exact other rfl
    refine .inr ⟨frameKey video,rfl,?_⟩
    simp only [ingest,found]
    split
    · exact get?_entry_of_ne ne _
    · split
      · rw [AssocMap.get?_erase,if_neg ne,get?_entry_of_ne ne]
      · rw [AssocMap.get?_insert,if_neg ne,get?_entry_of_ne ne]

theorem get?_ingest_uncrowded (other : fragmentKey datagram ≠ some key) (room : Uncrowded r datagram) :
    (r.ingest datagram).2.buffers.get? key = r.buffers.get? key := by
  rcases get?_ingest_other (r := r) other with same | ⟨key',found,same⟩
  · exact same
  · rw [same,makeRoom_uncrowded (room key' found)]

theorem get?_makeRoom_cases (buffers : AssocMap Nat FrameBuffer) (key other : Nat) :
    (makeRoom buffers key).get? other = buffers.get? other ∨ (makeRoom buffers key).get? other = none := by
  unfold makeRoom
  split
  · split
    · rw [AssocMap.get?_erase]
      split
      · exact .inr rfl
      · exact .inl rfl
    · exact .inl rfl
  · exact .inl rfl

/-- What becomes of the buffer of a fragment's frame. -/
inductive Outcome (start : FrameBuffer) (video : VideoHeader) (datagram : Bytes) :
    Option EncodedPacket → Option FrameBuffer → Prop
  | discarded : Outcome start video datagram none (some start)
  | stored (buf : FrameBuffer) (stored : start.store video datagram = some buf)
      (missing : buf.received ≠ buf.totalFrags.toNat) : Outcome start video datagram none (some buf)
  | completed (buf : FrameBuffer) (stored : start.store video datagram = some buf)
      (full : buf.received = buf.totalFrags.toNat) : Outcome start video datagram (some buf.packet) none

theorem entry_eq (buffers : AssocMap Nat FrameBuffer) (key : Nat) (fresh : FrameBuffer) :
    (entry buffers key fresh).1 = (buffers.get? key).getD fresh ∧
      (entry buffers key fresh).2.get? key = some ((buffers.get? key).getD fresh) := by
  unfold entry
  cases found : buffers.get? key with
  | some buf => exact ⟨rfl,found⟩
  | none => exact ⟨rfl,by rw [AssocMap.get?_insert,if_pos rfl]; rfl⟩

theorem ingest_outcome (headers : videoFragment datagram = some (common,video)) :
    Outcome ((r.buffers.get? (frameKey video)).getD (FrameBuffer.new common video)) video datagram
      (r.ingest datagram).1 ((r.ingest datagram).2.buffers.get? (frameKey video)) := by
  obtain ⟨start,held⟩ := entry_eq (makeRoom r.buffers (frameKey video)) (frameKey video) (FrameBuffer.new common video)
  rw [get?_makeRoom] at start held
  simp only [ingest,headers,start]
  cases stored : ((r.buffers.get? (frameKey video)).getD (FrameBuffer.new common video)).store video datagram with
  | none =>
    dsimp only
    rw [held]
    exact .discarded
  | some buf =>
    dsimp only
    split
    · next full =>
      rw [AssocMap.get?_erase,if_pos rfl]
      exact .completed buf stored full
    · next missing =>
      rw [AssocMap.get?_insert,if_pos rfl]
      exact .stored buf stored missing

theorem get?_ingest_kept {buf : FrameBuffer} (other : fragmentKey datagram ≠ some key)
    (kept : (r.ingest datagram).2.buffers.get? key = some buf) : r.buffers.get? key = some buf := by
  rcases get?_ingest_other (r := r) other with same | ⟨key',-,same⟩
  · exact same ▸ kept
  · rcases get?_makeRoom_cases r.buffers key' key with kept' | gone
    · exact kept' ▸ same ▸ kept
    · rw [same,gone] at kept
      cases kept

end Reassembler

end Streamhaul
