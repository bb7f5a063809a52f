import Streamhaul.PacketizeFrames

/-! Delivery of fragmented frames. The datagrams of one frame reach the reassembler in any order
and number, between datagrams of other frames. -/
namespace Streamhaul

section Emitted

variable (packet : EncodedPacket) (seqStart : UInt16)

def packetFrame (size n : Nat) : VideoFrame where
  parts := Chunks.pieces size packet.data n
  codec := packet.codec
  frameType := packet.frameType
  frameId := packet.frameId % 0x1000000
  captureTsUs := packet.captureTsUs % 0x100000000

variable {packet} {size n i : Nat}

theorem toNat_ofNat_of_le {k : Nat} (small : k ≤ 255) : (UInt8.ofNat k).toNat = k := by
  rw [UInt8.toNat_ofNat']
  omega

theorem decode_fragmentDatagram (inside : i < n) (few : n ≤ 255) :
    CommonHeader.decode (fragmentDatagram packet seqStart size n i) = .ok { fragmentCommon packet seqStart size n i with
      sequence := seqStart + UInt16.ofNat i, timestampUs := packet.captureTsUs % 0x100000000 } := by
  have offset : i ≤ u16Max := by
    simp only [u16Max]
    omega
  rw [fragmentDatagram,List.append_assoc,CommonHeader.decode_encode]
  simp only [fragmentCommon,low32_eq,if_pos offset]

theorem fragment_carried (cut : Cut packet.data size n) (inside : i < n) :
    ∃ common video, (packetFrame packet size n).Carried i (fragmentDatagram packet seqStart size n i) common video := by
  have few := cut.few
  have behind : (fragmentDatagram packet seqStart size n i).drop commonHeaderLen =
      (fragmentVideo packet n i).wire ++ Chunks.chunk size packet.data i := by
    rw [fragmentDatagram,List.append_assoc,List.drop_left' (CommonHeader.length_encode _),cut.chunk_eq inside]
  have payload : (fragmentDatagram packet seqStart size n i).drop combinedHeader = Chunks.chunk size packet.data i := by
    rw [combinedHeader,← List.drop_drop,behind,List.drop_left' (VideoHeader.length_wire _)]
  have video : VideoHeader.decode ((fragmentDatagram packet seqStart size n i).drop commonHeaderLen) = .ok
      { fragmentVideo packet n i with encodeTsUs := (packet.captureTsUs &&& 0xFFFFFFFF) % 0x100000000 } := by
    rw [behind]
    exact VideoHeader.decode_wire (masked_le _) UInt8.zero_le _
  have index : (UInt8.ofNat i).toNat = i := toNat_ofNat_of_le (by omega)
  have total : (UInt8.ofNat n).toNat = n := toNat_ofNat_of_le (by omega)
  have nonzero : UInt8.ofNat n ≠ 0 := by
    intro zero
    have same := congrArg UInt8.toNat zero
    rw [total,UInt8.toNat_zero] at same
    omega
  have order : ¬UInt8.ofNat n ≤ UInt8.ofNat i := by
    rw [UInt8.le_iff_toNat_le,total,index]
    omega
  have headers := videoFragment_eq (decode_fragmentDatagram seqStart inside few) rfl video nonzero order
  refine ⟨_,_,headers,low24_eq _,index,?_,rfl,rfl,rfl,?_,?_⟩
  · simp only [packetFrame,Chunks.length_pieces]
    exact total
  · simp [fragmentDatagram,combinedHeader]
  · rw [payload]
    exact Chunks.getElem?_pieces packet.data inside

end Emitted

namespace Reassembler

open Machine

def Sent (f : VideoFrame) (wire : Nat → Bytes) : Prop :=
  ∀ i < f.parts.length, ∃ common video, f.Carried i (wire i) common video

def arrived (n : Nat) (wire : Nat → Bytes) (seen : List Bytes) : Finset Nat :=
  (Finset.range n).filter (fun i => wire i ∈ seen)

theorem arrived_within (n : Nat) (wire : Nat → Bytes) (seen : List Bytes) : arrived n wire seen ⊆ Finset.range n :=
  Finset.filter_subset _ _

section Run

variable {f : VideoFrame} {wire : Nat → Bytes} {seen : List Bytes} {r : Reassembler}

theorem Sent.key (sent : Sent f wire) {i : Nat} (inside : i < f.parts.length) :
    fragmentKey (wire i) = some f.key := by
  obtain ⟨common,video,carried⟩ := sent i inside
  rw [fragmentKey,carried.headers,Option.map_some,carried.key_eq]

theorem Sent.injective (sent : Sent f wire) {i j : Nat} (first : i < f.parts.length) (second : j < f.parts.length)
    (same : wire i = wire j) : i = j := by
  obtain ⟨_,_,one⟩ := sent i first
  obtain ⟨_,_,other⟩ := sent j second
  have headers := one.headers
  rw [same,other.headers] at headers
  cases headers
  rw [← one.fragIndex,other.fragIndex]

theorem Sent.arrived_own (sent : Sent f wire) {i : Nat} (inside : i < f.parts.length) :
    arrived f.parts.length wire (seen ++ [wire i]) = insert i (arrived f.parts.length wire seen) := by
  ext j
  simp only [arrived,Finset.mem_filter,Finset.mem_range,List.mem_append,List.mem_singleton,Finset.mem_insert]
  constructor
  · rintro ⟨bound,before | now⟩
    · exact .inr ⟨bound,before⟩
    · exact .inl (sent.injective bound inside now)
  · rintro (rfl | ⟨bound,before⟩)
    · exact ⟨inside,.inr rfl⟩
    · exact ⟨bound,.inl before⟩

theorem Sent.arrived_other (sent : Sent f wire) {datagram : Bytes} (other : fragmentKey datagram ≠ some f.key) :
    arrived f.parts.length wire (seen ++ [datagram]) = arrived f.parts.length wire seen := by
  ext j
  simp only [arrived,Finset.mem_filter,Finset.mem_range,List.mem_append,List.mem_singleton]
  constructor
  · rintro ⟨bound,before | now⟩
    · exact ⟨bound,before⟩
    · rw [← now,sent.key bound] at other
      exact absurd rfl other
  · rintro ⟨bound,before⟩
    exact ⟨bound,.inl before⟩

/-- A datagram of the feed: a fragment of the frame, or one of another frame. -/
def Belongs (f : VideoFrame) (wire : Nat → Bytes) (datagram : Bytes) : Prop :=
  (∃ i < f.parts.length, datagram = wire i) ∨ fragmentKey datagram ≠ some f.key

/-- While a fragment is missing, a step adds what arrives and delivers nothing of the frame. -/
theorem Sent.step (sent : Sent f wire) (holds : f.Holds r (arrived f.parts.length wire seen)) {datagram : Bytes}
    (belongs : Belongs f wire datagram) (room : Uncrowded r datagram) {m : Nat} (inside : m < f.parts.length)
    (missing : wire m ∉ seen ++ [datagram]) :
    f.Holds (r.ingest datagram).2 (arrived f.parts.length wire (seen ++ [datagram])) ∧
      (fragmentKey datagram = some f.key → (r.ingest datagram).1 = none) := by
  rcases belongs with ⟨i,bound,rfl⟩ | other
  · obtain ⟨common,video,carried⟩ := sent i bound
    obtain ⟨response,next⟩ := ingest_collects carried holds (arrived_within _ _ _)
    have absent : m ∉ insert i (arrived f.parts.length wire seen) := by
      rw [← sent.arrived_own bound]
      intro member
      exact missing (Finset.mem_filter.mp member).2
    rw [Chunks.collect_missing inside absent] at response next
    rw [sent.arrived_own bound]
    exact ⟨next,fun _ => response⟩
  · rw [sent.arrived_other other]
    refine ⟨?_,fun own => absurd own other⟩
    rw [VideoFrame.Holds,get?_ingest_uncrowded other room]
    exact holds

theorem Sent.run (sent : Sent f wire) (feed : List Bytes) (holds : f.Holds r (arrived f.parts.length wire seen))
    (belongs : ∀ datagram ∈ feed, Belongs f wire datagram) (room : ∀ e ∈ trace ingest r feed, Uncrowded e.before e.call)
    {m : Nat} (inside : m < f.parts.length) (missing : wire m ∉ seen ++ feed) :
    f.Holds (final ingest r feed) (arrived f.parts.length wire (seen ++ feed)) ∧
      ∀ e ∈ trace ingest r feed, fragmentKey e.call = some f.key → e.response = none := by
  induction feed generalizing r seen with
  | nil =>
    rw [List.append_nil]
    exact ⟨holds,fun e member => by cases member⟩
  | cons datagram rest ih =>
    rw [List.append_cons] at missing ⊢
    obtain ⟨next,silent⟩ := sent.step holds (belongs datagram List.mem_cons_self)
      (room _ List.mem_cons_self) inside (fun early => missing (List.mem_append_left _ early))
    obtain ⟨last,later⟩ := ih next (fun d member => belongs d (List.mem_cons_of_mem _ member))
      (fun e member => room e (List.mem_cons_of_mem _ member)) missing
    refine ⟨last,fun e member => ?_⟩
    rcases List.mem_cons.mp member with rfl | tail
    · exact silent
    · exact later e tail

theorem Sent.completes (sent : Sent f wire) (holds : f.Holds r (arrived f.parts.length wire seen)) {i : Nat}
    (inside : i < f.parts.length) (new : wire i ∉ seen) (all : ∀ j < f.parts.length, wire j ∈ seen ++ [wire i]) :
    (r.ingest (wire i)).1 = some f.packet := by
  obtain ⟨common,video,carried⟩ := sent i inside
  obtain ⟨response,_⟩ := ingest_collects carried holds (arrived_within _ _ _)
  have fresh : i ∉ arrived f.parts.length wire seen := by
    intro member
    exact new (Finset.mem_filter.mp member).2
  have done : insert i (arrived f.parts.length wire seen) = Finset.range f.parts.length := by
    rw [← sent.arrived_own inside]
    exact Finset.filter_true_of_mem (fun j member => all j (Finset.mem_range.mp member))
  rw [Chunks.collect_last fresh done] at response
  exact response

end Run

section Fragments

variable {packet : EncodedPacket} {seqStart : UInt16} {size n : Nat}

theorem sent_fragments (seqStart : UInt16) (cut : Cut packet.data size n) :
    Sent (packetFrame packet size n) (fragmentDatagram packet seqStart size n) := by
  intro i inside
  rw [packetFrame,Chunks.length_pieces] at inside
  exact fragment_carried seqStart cut inside

theorem packetFrame_key (packet : EncodedPacket) (size n : Nat) :
    (packetFrame packet size n).key = (packet.frameId % 0x1000000).toNat := by
  rw [VideoFrame.key,packetFrame,low24_eq]
  simp only [UInt64.toNat_mod,UInt64.reduceToNat,Nat.mod_mod]

theorem packetFrame_packet (cut : Cut packet.data size n) : (packetFrame packet size n).packet = { packet with
    frameId := packet.frameId % 0x1000000, captureTsUs := packet.captureTsUs % 0x100000000 } := by
  simp only [VideoFrame.packet,packetFrame,Chunks.flatten_pieces cut.covers]

theorem mem_fragments {datagram : Bytes} :
    datagram ∈ (List.range n).map (fragmentDatagram packet seqStart size n) ↔
      ∃ i < (packetFrame packet size n).parts.length, datagram = fragmentDatagram packet seqStart size n i := by
  simp only [packetFrame,Chunks.length_pieces,List.mem_map,List.mem_range,eq_comm]

end Fragments

end Reassembler

namespace Transparent

def rawPacket : EncodedPacket := ⟨[1,2,3,4,5],.raw,0x1000007,0x100000009,.idr⟩
def otherPacket : EncodedPacket := ⟨[9],.raw,8,0,.predicted⟩

/-- The datagrams of a packet when two payload bytes fit each. -/
def fragments (packet : EncodedPacket) (seqStart : UInt16) : List Bytes :=
  (fragment packet seqStart 23).toOption.getD []

end Transparent

namespace Reassembler

open Machine Transparent

end Reassembler

end Streamhaul
