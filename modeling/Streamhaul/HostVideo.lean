import Streamhaul.PacketizeFrames

/-! The video fragments of the WebRTC host, and how they compare with those of the core
packetizer. The host writes the length of the codec bytes where the packetizer writes the length of
everything behind the common header. -/
namespace Streamhaul

/-- An error with its context, and the protocol error below it when there is one. -/
structure HostError where
  context : String
  cause : Option ProtocolError
  deriving DecidableEq

def hostCommon (sequence : UInt16) (tsUs : UInt64) (chunk : Bytes) (fragIndex totalFrags : UInt8) : CommonHeader where
  channel := .video
  flags := ⟨1 < totalFrags,1 < totalFrags && (totalFrags != 0 && totalFrags - 1 == fragIndex)⟩
  sequence := sequence
  timestampUs := tsUs
  payloadLen := UInt16.ofNat chunk.length

def hostVideo (frameId : UInt32) (tsUs : UInt64) (frameType : FrameType) (fragIndex totalFrags : UInt8) : VideoHeader where
  frameId := frameId.toUInt64
  fragIndex := fragIndex
  totalFrags := totalFrags
  codec := .h264
  frameType := frameType
  priority := .high
  monitorId := 0
  marker := totalFrags != 0 && totalFrags - 1 == fragIndex
  encodeTsUs := tsUs

def buildOneFragment (sequence : UInt16) (frameId : UInt32) (tsUs : UInt64) (frameType : FrameType) (chunk : Bytes)
    (fragIndex totalFrags : UInt8) : Except HostError Bytes :=
  if u16Max < chunk.length then .error ⟨"SHP fragment exceeds 16-bit payload-length cap",none⟩
  else
    match (hostVideo frameId tsUs frameType fragIndex totalFrags).encode with
    | .error e => .error ⟨"encode video header",some e⟩
    | .ok video => .ok ((hostCommon sequence tsUs chunk fragIndex totalFrags).encode ++ video ++ chunk)

/-- The host clamps the fragment size to what the length field can say. -/
def hostChunkSize (maxFragmentBytes : Nat) : Nat := max 1 (min maxFragmentBytes u16Max)

def hostRound (sequenceStart : UInt16) (frameId : UInt32) (tsUs : UInt64) (frameType : FrameType) (payload : Bytes)
    (chunkSize total i : Nat) : Except HostError Bytes :=
  if 255 < i then .error ⟨"frag_index overflow (invariant: i < total_frags)",none⟩
  else buildOneFragment (sequenceStart + (UInt8.ofNat i).toUInt16) frameId tsUs frameType
    (Chunks.chunk chunkSize payload i) (UInt8.ofNat i) (UInt8.ofNat total)

def buildShpVideoFragments (sequenceStart : UInt16) (frameId : UInt32) (tsUs : UInt64) (frameType : FrameType)
    (payload : Bytes) (maxFragmentBytes : Nat) : Except HostError (List Bytes) :=
  let chunkSize := hostChunkSize maxFragmentBytes
  let total := max (Chunks.count chunkSize payload) 1
  if 255 < total then .error ⟨"encoded frame needs more than 255 SHP fragments",none⟩
  else if payload.isEmpty then
    match buildOneFragment sequenceStart frameId tsUs frameType [] 0 (UInt8.ofNat total) with
    | .error e => .error e
    | .ok fragment => .ok [fragment]
  else (List.range (Chunks.count chunkSize payload)).mapM
    (hostRound sequenceStart frameId tsUs frameType payload chunkSize total)

section Host

variable (seq : UInt16) (frameId : UInt32) (ts : UInt64) (frameType : FrameType) {payload : Bytes}

def hostDatagram (payload : Bytes) (size n i : Nat) : Bytes :=
  (hostCommon (seq + UInt16.ofNat i) ts (Chunks.chunk size payload i) (UInt8.ofNat i) (UInt8.ofNat n)).encode ++
    (hostVideo frameId ts frameType (UInt8.ofNat i) (UInt8.ofNat n)).wire ++ Chunks.chunk size payload i

theorem buildOneFragment_ok_iff (chunk : Bytes) (fragIndex totalFrags : UInt8) (datagram : Bytes) :
    buildOneFragment seq frameId ts frameType chunk fragIndex totalFrags = .ok datagram ↔
      (chunk.length ≤ u16Max ∧ frameId.toUInt64 ≤ maxFrameId) ∧
        datagram = (hostCommon seq ts chunk fragIndex totalFrags).encode ++
          (hostVideo frameId ts frameType fragIndex totalFrags).wire ++ chunk := by
  unfold buildOneFragment
  by_cases long : u16Max < chunk.length
  · rw [if_pos long]
    simp only [reduceCtorEq,false_iff]
    omega
  · rw [if_neg long]
    by_cases large : frameId.toUInt64 ≤ maxFrameId
    · have encoded : (hostVideo frameId ts frameType fragIndex totalFrags).encode =
          .ok (hostVideo frameId ts frameType fragIndex totalFrags).wire := VideoHeader.encode_eq large UInt8.zero_le
      simp only [encoded]
      rw [Except.ok.injEq,eq_comm]
      exact ⟨fun same => ⟨⟨by omega,large⟩,same⟩,fun built => built.2⟩
    · have refused : (hostVideo frameId ts frameType fragIndex totalFrags).encode =
          .error (.frameIdTooLarge frameId.toUInt64) := by
        rw [VideoHeader.encode]
        exact if_pos (UInt64.not_le.mp large)
      simp only [refused,reduceCtorEq,large,and_false,false_and]

theorem hostChunkSize_eq {c : Nat} (positive : 0 < c) (narrow : c ≤ u16Max) : hostChunkSize c = c := by
  unfold hostChunkSize
  omega

theorem hostChunkSize_pos (maxFragmentBytes : Nat) : 0 < hostChunkSize maxFragmentBytes := by
  unfold hostChunkSize
  omega

theorem hostChunkSize_le (maxFragmentBytes : Nat) : hostChunkSize maxFragmentBytes ≤ u16Max := by
  unfold hostChunkSize u16Max
  omega

theorem hostRound_ok_iff {size n : Nat} (bounded : size ≤ u16Max) (i : Nat) (datagram : Bytes) :
    hostRound seq frameId ts frameType payload size n i = .ok datagram ↔
      (i ≤ 255 ∧ frameId.toUInt64 ≤ maxFrameId) ∧
        datagram = hostDatagram seq frameId ts frameType payload size n i := by
  have short : (Chunks.chunk size payload i).length ≤ u16Max := by
    rw [Chunks.length_chunk]
    omega
  unfold hostRound
  by_cases beyond : 255 < i
  · rw [if_pos beyond]
    simp only [reduceCtorEq,false_iff]
    omega
  · have index : (UInt8.ofNat i).toUInt16 = UInt16.ofNat i := by
      apply UInt16.toNat_inj.mp
      rw [UInt8.toNat_toUInt16,UInt8.toNat_ofNat',UInt16.toNat_ofNat']
      omega
    rw [if_neg beyond,index,buildOneFragment_ok_iff]
    simp only [short,Nat.not_lt.mp beyond,true_and,hostDatagram]

def hostTotal (payload : Bytes) (size : Nat) : Nat := max (Chunks.count size payload) 1

/-- The frame without bytes goes through the loop like any other. -/
theorem buildShpVideoFragments_eq (payload : Bytes) (maxFragmentBytes : Nat) :
    buildShpVideoFragments seq frameId ts frameType payload maxFragmentBytes =
      if 255 < hostTotal payload (hostChunkSize maxFragmentBytes) then
        .error ⟨"encoded frame needs more than 255 SHP fragments",none⟩
      else (List.range (hostTotal payload (hostChunkSize maxFragmentBytes))).mapM
        (hostRound seq frameId ts frameType payload (hostChunkSize maxFragmentBytes)
          (hostTotal payload (hostChunkSize maxFragmentBytes))) := by
  have total := Chunks.max_count_one (hostChunkSize_pos maxFragmentBytes) payload
  unfold buildShpVideoFragments hostTotal
  generalize hostChunkSize maxFragmentBytes = size at *
  cases payload with
  | nil =>
    have first : hostRound seq frameId ts frameType [] size 1 0 =
        buildOneFragment seq frameId ts frameType [] 0 (UInt8.ofNat 1) := by
      simp [hostRound,Chunks.chunk]
    simp only [total,List.isEmpty_nil,if_true,List.range_one,List.mapM_cons,List.mapM_nil,first]
    cases buildOneFragment seq frameId ts frameType [] 0 (UInt8.ofNat 1) <;> rfl
  | cons byte rest => simp only [total,List.isEmpty_cons,Bool.false_eq_true,if_false]

theorem hostTotal_pos (payload : Bytes) (size : Nat) : 0 < hostTotal payload size :=
  Nat.lt_of_lt_of_le Nat.one_pos (le_max_right _ _)

theorem hostTotal_le_iff (payload : Bytes) {size : Nat} (positive : 0 < size) :
    hostTotal payload size ≤ 255 ↔ payload.length ≤ 255 * size := by
  rw [← Chunks.count_le_iff positive,hostTotal]
  omega

theorem buildShpVideoFragments_ok_iff (payload : Bytes) (maxFragmentBytes : Nat) (frags : List Bytes) :
    buildShpVideoFragments seq frameId ts frameType payload maxFragmentBytes = .ok frags ↔
      (payload.length ≤ 255 * hostChunkSize maxFragmentBytes ∧ frameId.toUInt64 ≤ maxFrameId) ∧
        frags = (List.range (hostTotal payload (hostChunkSize maxFragmentBytes))).map
          (hostDatagram seq frameId ts frameType payload (hostChunkSize maxFragmentBytes)
            (hostTotal payload (hostChunkSize maxFragmentBytes))) := by
  have bounded := hostChunkSize_le maxFragmentBytes
  rw [← hostTotal_le_iff payload (hostChunkSize_pos maxFragmentBytes),buildShpVideoFragments_eq]
  have nonempty := hostTotal_pos payload (hostChunkSize maxFragmentBytes)
  generalize hostTotal payload (hostChunkSize maxFragmentBytes) = n at *
  by_cases many : 255 < n
  · rw [if_pos many]
    simp only [reduceCtorEq,false_iff]
    omega
  · rw [if_neg many,mapM_ok_iff (hostRound_ok_iff seq frameId ts frameType bounded)]
    apply and_congr_left'
    constructor
    · intro good
      exact ⟨by omega,(good 0 (List.mem_range.mpr nonempty)).2⟩
    · rintro ⟨few,small⟩ i inside
      have := List.mem_range.mp inside
      exact ⟨by omega,small⟩

/-- The producers fail together, or emit the same datagrams. -/
def SameWire (core : Except PacketizeError (List Bytes)) (host : Except HostError (List Bytes)) : Prop :=
  match core,host with
  | .error _,.error _ => True
  | .ok a,.ok b => a = b
  | _,_ => False

def emitted {ε : Type} : Except ε (List Bytes) → List Bytes
  | .error _ => []
  | .ok frags => frags

/-- The length field counts what follows the common header. -/
def LengthStated (datagram : Bytes) : Prop :=
  ∃ header, CommonHeader.decode datagram = .ok header ∧ header.payloadLen.toNat = (datagram.drop commonHeaderLen).length

def hostPacket (payload : Bytes) : EncodedPacket := ⟨payload,.h264,frameId.toUInt64,ts,frameType⟩

theorem not_lengthStated_hostDatagram {size n i : Nat} (bounded : size ≤ u16Max) :
    ¬LengthStated (hostDatagram seq frameId ts frameType payload size n i) := by
  rintro ⟨header,decoded,stated⟩
  unfold hostDatagram at decoded stated
  rw [List.append_assoc,CommonHeader.decode_encode] at decoded
  rw [← Except.ok.inj decoded] at stated
  have short : (Chunks.chunk size payload i).length ≤ u16Max := by
    rw [Chunks.length_chunk]
    omega
  rw [List.append_assoc,List.drop_left' (CommonHeader.length_encode _),List.length_append,VideoHeader.length_wire] at stated
  simp only [hostCommon,UInt16.toNat_ofNat',videoHeaderLen] at stated
  omega

theorem lastFragment_eq {n i : Nat} (few : n ≤ 255) (inside : i < n) :
    (UInt8.ofNat n != 0 && UInt8.ofNat n - 1 == UInt8.ofNat i) = (i + 1 == n) := by
  have total : UInt8.ofNat n - 1 = UInt8.ofNat (n - 1) := by
    rw [UInt8.ofNat_sub (Nat.one_le_of_lt inside)]
    rfl
  have nonzero : UInt8.ofNat n ≠ 0 := by
    intro zero
    have := congrArg UInt8.toNat zero
    rw [UInt8.toNat_ofNat'] at this
    simp at this
    omega
  have injective : UInt8.ofNat (n - 1) = UInt8.ofNat i ↔ i + 1 = n := by
    rw [← UInt8.toNat_inj,UInt8.toNat_ofNat',UInt8.toNat_ofNat']
    omega
  rw [Bool.eq_iff_iff,total]
  simp only [Bool.and_eq_true,bne_iff_ne,beq_iff_eq,injective,nonzero,ne_eq,not_false_eq_true,true_and]

theorem fragmentVideo_wire {n i : Nat} (small : frameId.toUInt64 ≤ maxFrameId) (few : n ≤ 255) (inside : i < n) :
    (fragmentVideo (hostPacket frameId ts frameType payload) n i).wire =
      (hostVideo frameId ts frameType (UInt8.ofNat i) (UInt8.ofNat n)).wire := by
  have id : frameId.toUInt64 &&& maxFrameId = frameId.toUInt64 := by
    rw [low24_eq]
    apply UInt64.toNat_inj.mp
    have := UInt64.le_iff_toNat_le.mp small
    simp only [maxFrameId,UInt64.toNat_mod,UInt64.reduceToNat] at this ⊢
    omega
  have time : toBeBytes 4 (ts &&& 0xFFFFFFFF).toNat = toBeBytes 4 ts.toNat := by
    have low := fromBeBytes_toBeBytes 4 ts.toNat
    have mask : ts.toNat &&& 0xFFFFFFFF = ts.toNat % 256 ^ 4 := Nat.and_two_pow_sub_one_eq_mod ts.toNat 32
    have whole := toBeBytes_fromBeBytes (toBeBytes 4 ts.toNat)
    rw [length_toBeBytes,low,← mask] at whole
    exact whole
  simp only [VideoHeader.wire,fragmentVideo,hostVideo,hostPacket,id,lastFragment_eq few inside,time]

/-- Behind the common header both producers emit the same bytes. -/
theorem drop_fragmentDatagram {size n i : Nat} (small : frameId.toUInt64 ≤ maxFrameId)
    (cut : Cut payload size n) (inside : i < n) :
    (fragmentDatagram (hostPacket frameId ts frameType payload) seq size n i).drop commonHeaderLen =
      (hostDatagram seq frameId ts frameType payload size n i).drop commonHeaderLen := by
  have chunk : fragmentChunk (hostPacket frameId ts frameType payload).data size i = Chunks.chunk size payload i :=
    cut.chunk_eq inside
  unfold fragmentDatagram hostDatagram
  rw [List.append_assoc,List.append_assoc,List.drop_left' (CommonHeader.length_encode _),
    List.drop_left' (CommonHeader.length_encode _),chunk,fragmentVideo_wire frameId ts frameType small cut.few inside]

theorem bodies_agree {c : Nat} {core host : List Bytes} (narrow : c ≤ u16Max)
    (first : fragment (hostPacket frameId ts frameType payload) seq (c + combinedHeader) = .ok core)
    (second : buildShpVideoFragments seq frameId ts frameType payload c = .ok host) :
    core.map (List.drop commonHeaderLen) = host.map (List.drop commonHeaderLen) := by
  obtain ⟨size,n,same,cut,rfl⟩ := fragment_ok _ _ first
  obtain ⟨⟨-,small⟩,rfl⟩ := (buildShpVideoFragments_ok_iff seq frameId ts frameType payload c _).mp second
  obtain rfl : size = c := by omega
  have total : n = hostTotal payload size := cut.total
  rw [hostChunkSize_eq cut.positive narrow,List.map_map,List.map_map,← total]
  apply List.map_congr_left
  intro i inside
  exact drop_fragmentDatagram seq frameId ts frameType small cut (List.mem_range.mp inside)

theorem fragment_many {size : Nat} (positive : 0 < size) (many : 255 * size < payload.length) :
    ∃ e, fragment (hostPacket frameId ts frameType payload) seq (size + combinedHeader) = .error e := by
  cases built : fragment (hostPacket frameId ts frameType payload) seq (size + combinedHeader) with
  | error e => exact ⟨e,rfl⟩
  | ok frags =>
    obtain ⟨size',n,same,cut,-⟩ := fragment_ok _ _ built
    have few := Nat.mul_le_mul_right size' cut.few
    have covers := cut.covers
    obtain rfl : size' = size := by omega
    exact absurd (covers.trans few) (Nat.not_le.mpr many)

/-- The producers agree on no frame that the host can send: what holds is only that they give up together. -/
theorem producers_agree_iff {payload : Bytes} {c : Nat} (positive : 1 ≤ c) (narrow : c + 12 ≤ 65535)
    (small : frameId.toUInt64 ≤ maxFrameId) :
    (SameWire (fragment (hostPacket frameId ts frameType payload) seq (c + 21))
        (buildShpVideoFragments seq frameId ts frameType payload c) ∧
      ∀ datagram ∈ emitted (fragment (hostPacket frameId ts frameType payload) seq (c + 21)) ++
        emitted (buildShpVideoFragments seq frameId ts frameType payload c), LengthStated datagram) ↔
      255 * c < payload.length := by
  have size : hostChunkSize c = c := hostChunkSize_eq positive (by unfold u16Max; omega)
  have host := buildShpVideoFragments_ok_iff seq frameId ts frameType payload c
  rw [size] at host
  constructor
  · rintro ⟨-,stated⟩
    by_contra few
    have built := (host _).mpr ⟨⟨Nat.not_lt.mp few,small⟩,rfl⟩
    have first : hostDatagram seq frameId ts frameType payload c (hostTotal payload c) 0 ∈
        emitted (buildShpVideoFragments seq frameId ts frameType payload c) := by
      rw [built]
      exact List.mem_map_of_mem (List.mem_range.mpr (hostTotal_pos payload c))
    exact not_lengthStated_hostDatagram seq frameId ts frameType (by unfold u16Max; omega)
      (stated _ (List.mem_append_right _ first))
  · intro many
    obtain ⟨e,core⟩ := fragment_many seq frameId ts frameType positive many
    cases built : buildShpVideoFragments seq frameId ts frameType payload c with
    | ok frags => exact absurd ((host frags).mp built).1.1 (Nat.not_le.mpr many)
    | error e' =>
      have core' : fragment (hostPacket frameId ts frameType payload) seq (c + 21) = .error e := core
      rw [core']
      exact ⟨trivial,fun datagram sent => absurd sent (List.not_mem_nil)⟩

end Host

theorem long_frame_refused :
    SameWire (fragment (hostPacket 0 0 .idr (List.replicate 256 0)) 0 22)
        (buildShpVideoFragments 0 0 0 .idr (List.replicate 256 0) 1) ∧
      ∀ datagram ∈ emitted (fragment (hostPacket 0 0 .idr (List.replicate 256 0)) 0 22) ++
        emitted (buildShpVideoFragments 0 0 0 .idr (List.replicate 256 0) 1), LengthStated datagram := by
  have many : 255 * 1 < (List.replicate 256 (0 : UInt8)).length := by
    rw [List.length_replicate]
    omega
  exact (producers_agree_iff 0 0 0 .idr (by decide) (by decide) (by decide)).mpr many

/-- A frame of one byte: the length field of the host is short by the video header, and only the
packetizer marks the fragment as the last. -/
theorem one_byte_producers_differ :
    fragment (hostPacket 1 0 .idr [7]) 0 22 =
        .ok [[0x41,0,0,0,0,0,0,0,13] ++ [0,0,1,0,1,0x06,0x08,0,0,0,0,0] ++ [7]] ∧
      buildShpVideoFragments 0 1 0 .idr [7] 1 =
        .ok [[0x40,0,0,0,0,0,0,0,1] ++ [0,0,1,0,1,0x06,0x08,0,0,0,0,0] ++ [7]] ∧
      ¬SameWire (fragment (hostPacket 1 0 .idr [7]) 0 22) (buildShpVideoFragments 0 1 0 .idr [7] 1) ∧
      ∀ datagram ∈ emitted (buildShpVideoFragments 0 1 0 .idr [7] 1), ¬LengthStated datagram := by
  have core : fragment (hostPacket 1 0 .idr [7]) 0 22 =
      .ok [[0x41,0,0,0,0,0,0,0,13] ++ [0,0,1,0,1,0x06,0x08,0,0,0,0,0] ++ [7]] := by decide +kernel
  have host : buildShpVideoFragments 0 1 0 .idr [7] 1 =
      .ok [[0x40,0,0,0,0,0,0,0,1] ++ [0,0,1,0,1,0x06,0x08,0,0,0,0,0] ++ [7]] := by decide +kernel
  refine ⟨core,host,?_,?_⟩
  · rw [core,host]
    change ¬[_] = [_]
    decide
  · obtain ⟨-,frags⟩ := (buildShpVideoFragments_ok_iff 0 1 0 .idr [7] 1 _).mp host
    rw [host]
    intro datagram sent
    rw [emitted,frags,List.mem_map] at sent
    obtain ⟨i,-,rfl⟩ := sent
    exact not_lengthStated_hostDatagram 0 1 0 .idr (hostChunkSize_le 1)

end Streamhaul
