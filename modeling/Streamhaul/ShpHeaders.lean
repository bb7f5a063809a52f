import Streamhaul.ChannelFrame

/-! The wire headers of SHP packets: the common header in front of every packet, the video
header behind it, and the errors of the protocol crate. -/
namespace Streamhaul

inductive ProtocolError where
  | truncated (needed have' : Nat)
  | unsupportedVersion (version : UInt8)
  | invalidChannel (bits : UInt8)
  | invalidCodec (bits : UInt8)
  | invalidFrameType (bits : UInt8)
  | invalidPriority (bits : UInt8)
  | reservedBitsSet
  | invalidEventType (byte : UInt8)
  | frameIdTooLarge (id : UInt64)
  | monitorIdTooLarge (id : UInt8)
  | unknownVersion (byte : UInt8)
  | fileChunkTooLarge (size : Nat)
  | invalidClipboardFormat (byte : UInt8)
  | clipboardTooLarge (size : Nat)
  | invalidClipboardText
  deriving DecidableEq

def shpVersion : UInt8 := 1
def commonHeaderLen : Nat := 9
def videoHeaderLen : Nat := 12
def inputEventLen : Nat := 16
def maxFrameId : UInt64 := 0x00FFFFFF
def maxMonitorId : UInt8 := 0x0F

/-- The or of the values, each shifted left by its own amount. -/
def bitpack (parts : List (UInt8 × UInt8)) : UInt8 :=
  parts.foldl (fun out part => out ||| (part.1 <<< part.2)) 0

theorem exists_three {bytes : Bytes} (size : bytes.length = 3) : ∃ a b c, bytes = [a,b,c] := by
  match bytes,size with
  | [a,b,c],_ => exact ⟨a,b,c,rfl⟩

theorem exists_four {bytes : Bytes} (size : bytes.length = 4) : ∃ a b c d, bytes = [a,b,c,d] := by
  match bytes,size with
  | [a,b,c,d],_ => exact ⟨a,b,c,d,rfl⟩

theorem ofNat_fromBeBytes_four (value : UInt64) :
    UInt64.ofNat (fromBeBytes (toBeBytes 4 value.toNat)) = value % 0x100000000 := by
  have bound := Nat.mod_lt value.toNat (show 0 < 256 ^ 4 by decide)
  apply UInt64.toNat_inj.mp
  rw [fromBeBytes_toBeBytes]
  simp only [UInt64.toNat_ofNat',UInt64.toNat_mod,UInt64.reduceToNat]
  omega

structure Flags where
  fragment : Bool
  lastFragment : Bool
  deriving DecidableEq

structure CommonHeader where
  channel : ChannelId
  flags : Flags
  sequence : UInt16
  timestampUs : UInt64
  payloadLen : UInt16
  deriving DecidableEq

namespace CommonHeader

/-- The timestamp is narrowed to its low 32 bits. -/
def encode (header : CommonHeader) : Bytes :=
  let flagsBits := bitpack [(header.flags.fragment.toUInt8,1),(header.flags.lastFragment.toUInt8,0)]
  [bitpack [(shpVersion,6),(header.channel.toU8,2),(flagsBits,0)]] ++ be16 header.sequence ++
    toBeBytes 4 header.timestampUs.toNat ++ be16 header.payloadLen

def decode (data : Bytes) : Except ProtocolError CommonHeader :=
  match data with
  | byte0 :: s0 :: s1 :: t0 :: t1 :: t2 :: t3 :: l0 :: l1 :: _ =>
    if byte0 >>> 6 ≠ shpVersion then .error (.unsupportedVersion (byte0 >>> 6))
    else
      match ChannelId.tryFrom ((byte0 >>> 2) &&& 0x0F) with
      | none => .error (.invalidChannel ((byte0 >>> 2) &&& 0x0F))
      | some channel => .ok {
          channel := channel
          flags := ⟨byte0 &&& 2 != 0,byte0 &&& 1 != 0⟩
          sequence := UInt16.ofNat (fromBeBytes [s0,s1])
          timestampUs := UInt64.ofNat (fromBeBytes [t0,t1,t2,t3])
          payloadLen := UInt16.ofNat (fromBeBytes [l0,l1]) }
  | _ => .error (.truncated commonHeaderLen data.length)

@[simp] theorem length_encode (header : CommonHeader) : header.encode.length = commonHeaderLen := by
  simp [encode,commonHeaderLen]

theorem decode_encode (header : CommonHeader) (rest : Bytes) :
    decode (header.encode ++ rest) = .ok { header with timestampUs := header.timestampUs % 0x100000000 } := by
  obtain ⟨channel,⟨fragment,lastFragment⟩,sequence,timestampUs,payloadLen⟩ := header
  obtain ⟨s0,s1,sequenceBytes⟩ := List.length_eq_two.mp (length_be16 sequence)
  obtain ⟨l0,l1,lengthBytes⟩ := List.length_eq_two.mp (length_be16 payloadLen)
  obtain ⟨t0,t1,t2,t3,timestampBytes⟩ := exists_four (length_toBeBytes 4 timestampUs.toNat)
  simp only [encode,sequenceBytes,lengthBytes,timestampBytes,List.cons_append,List.nil_append,decode]
  rw [← sequenceBytes,← lengthBytes,← timestampBytes,ofNat_fromBeBytes_four,ofNat_fromBeBytes_be16,ofNat_fromBeBytes_be16]
  cases channel <;> cases fragment <;> cases lastFragment <;> rfl

end CommonHeader

inductive Codec where
  | h264 | h265 | av1 | raw
  deriving DecidableEq

def Codec.toBits : Codec → UInt8
  | .h264 => 0
  | .h265 => 1
  | .av1 => 2
  | .raw => 3

def Codec.fromBits (bits : UInt8) : Except ProtocolError Codec :=
  if bits = 0 then .ok .h264
  else if bits = 1 then .ok .h265
  else if bits = 2 then .ok .av1
  else if bits = 3 then .ok .raw
  else .error (.invalidCodec bits)

inductive FrameType where
  | predicted | idr | intraRefresh
  deriving DecidableEq

def FrameType.toBits : FrameType → UInt8
  | .predicted => 0
  | .idr => 1
  | .intraRefresh => 2

def FrameType.fromBits (bits : UInt8) : Except ProtocolError FrameType :=
  if bits = 0 then .ok .predicted
  else if bits = 1 then .ok .idr
  else if bits = 2 then .ok .intraRefresh
  else .error (.invalidFrameType bits)

inductive Priority where
  | dropEligible | normal | high
  deriving DecidableEq

def Priority.toBits : Priority → UInt8
  | .dropEligible => 0
  | .normal => 1
  | .high => 2

def Priority.fromBits (bits : UInt8) : Except ProtocolError Priority :=
  if bits = 0 then .ok .dropEligible
  else if bits = 1 then .ok .normal
  else if bits = 2 then .ok .high
  else .error (.invalidPriority bits)

structure VideoHeader where
  frameId : UInt64
  fragIndex : UInt8
  totalFrags : UInt8
  codec : Codec
  frameType : FrameType
  priority : Priority
  monitorId : UInt8
  marker : Bool
  encodeTsUs : UInt64
  deriving DecidableEq

namespace VideoHeader

def wire (header : VideoHeader) : Bytes :=
  toBeBytes 3 header.frameId.toNat ++ [header.fragIndex,header.totalFrags,
    bitpack [(header.codec.toBits,4),(header.frameType.toBits,2),(header.priority.toBits,0)],
    bitpack [(header.monitorId,4),(header.marker.toUInt8,3)],0] ++ toBeBytes 4 header.encodeTsUs.toNat

def encode (header : VideoHeader) : Except ProtocolError Bytes :=
  if maxFrameId < header.frameId then .error (.frameIdTooLarge header.frameId)
  else if maxMonitorId < header.monitorId then .error (.monitorIdTooLarge header.monitorId)
  else .ok header.wire

def decode (data : Bytes) : Except ProtocolError VideoHeader :=
  match data with
  | f0 :: f1 :: f2 :: fragIndex :: totalFrags :: byte5 :: byte6 :: reserved :: e0 :: e1 :: e2 :: e3 :: _ =>
    if reserved ≠ 0 ∨ byte6 &&& 0x07 ≠ 0 then .error .reservedBitsSet
    else do
      let codec ← Codec.fromBits (byte5 >>> 4)
      let frameType ← FrameType.fromBits ((byte5 >>> 2) &&& 0x03)
      let priority ← Priority.fromBits (byte5 &&& 0x03)
      return {
        frameId := UInt64.ofNat (fromBeBytes [0,f0,f1,f2])
        fragIndex := fragIndex
        totalFrags := totalFrags
        codec := codec
        frameType := frameType
        priority := priority
        monitorId := byte6 >>> 4
        marker := byte6 &&& 0x08 != 0
        encodeTsUs := UInt64.ofNat (fromBeBytes [e0,e1,e2,e3]) }
  | _ => .error (.truncated videoHeaderLen data.length)

@[simp] theorem length_wire (header : VideoHeader) : header.wire.length = videoHeaderLen := by
  simp [wire,videoHeaderLen]

theorem encode_eq {header : VideoHeader} (frame : header.frameId ≤ maxFrameId) (monitor : header.monitorId ≤ maxMonitorId) :
    header.encode = .ok header.wire := by
  rw [encode,if_neg (UInt64.not_lt.mpr frame),if_neg (UInt8.not_lt.mpr monitor)]

theorem monitor_bits (monitorId : UInt8) (bound : monitorId ≤ maxMonitorId) (marker : Bool) :
    bitpack [(monitorId,4),(marker.toUInt8,3)] &&& 0x07 = 0 ∧
      bitpack [(monitorId,4),(marker.toUInt8,3)] >>> 4 = monitorId ∧
      (bitpack [(monitorId,4),(marker.toUInt8,3)] &&& 0x08 != 0) = marker := by
  have small : monitorId.toNat < 16 := by
    have := UInt8.le_iff_toNat_le.mp bound
    simp only [maxMonitorId,UInt8.reduceToNat] at this
    omega
  rw [← UInt8.ofNat_toNat (x := monitorId)]
  generalize monitorId.toNat = n at small ⊢
  interval_cases n <;> cases marker <;> decide

theorem byte5_bits (codec : Codec) (frameType : FrameType) (priority : Priority) :
    let byte5 := bitpack [(codec.toBits,4),(frameType.toBits,2),(priority.toBits,0)]
    Codec.fromBits (byte5 >>> 4) = .ok codec ∧ FrameType.fromBits ((byte5 >>> 2) &&& 0x03) = .ok frameType ∧
      Priority.fromBits (byte5 &&& 0x03) = .ok priority := by
  cases codec <;> cases frameType <;> cases priority <;> exact ⟨rfl,rfl,rfl⟩

theorem decode_wire {header : VideoHeader} (large : header.frameId ≤ maxFrameId) (many : header.monitorId ≤ maxMonitorId)
    (rest : Bytes) :
    decode (header.wire ++ rest) = .ok { header with encodeTsUs := header.encodeTsUs % 0x100000000 } := by
  obtain ⟨frameId,fragIndex,totalFrags,codec,frameType,priority,monitorId,marker,encodeTsUs⟩ := header
  obtain ⟨f0,f1,f2,frameBytes⟩ := exists_three (length_toBeBytes 3 frameId.toNat)
  obtain ⟨e0,e1,e2,e3,timestampBytes⟩ := exists_four (length_toBeBytes 4 encodeTsUs.toNat)
  obtain ⟨reserved,monitor,marked⟩ := monitor_bits monitorId many marker
  obtain ⟨codecBits,typeBits,priorityBits⟩ := byte5_bits codec frameType priority
  have frame : UInt64.ofNat (fromBeBytes [0,f0,f1,f2]) = frameId := by
    have small := UInt64.le_iff_toNat_le.mp large
    simp only [maxFrameId,UInt64.reduceToNat] at small
    have padded : fromBeBytes [0,f0,f1,f2] = fromBeBytes (toBeBytes 3 frameId.toNat) := by
      rw [frameBytes]
      simp [fromBeBytes]
    rw [padded,fromBeBytes_of_lt (by omega),UInt64.ofNat_toNat]
  simp only [wire,frameBytes,timestampBytes,List.cons_append,List.nil_append,decode,reserved,monitor,marked,codecBits,
    typeBits,priorityBits,frame]
  rw [← timestampBytes,ofNat_fromBeBytes_four]
  rfl

end VideoHeader

end Streamhaul
