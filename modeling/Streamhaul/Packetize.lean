import Streamhaul.AssocMap
import Streamhaul.Chunks
import Streamhaul.ShpHeaders

/-! Fragmentation of encoded frames into SHP video datagrams, and the reassembler that collects
them. Buffered frames are keyed by the 24-bit frame id; a full reassembler drops the frame with
the lowest id. -/
namespace Streamhaul

structure EncodedPacket where
  data : Bytes
  codec : Codec
  frameId : UInt64
  captureTsUs : UInt64
  frameType : FrameType
  deriving DecidableEq

inductive PacketizeError where
  | tooManyFragments (count : Nat)
  | protocol (e : ProtocolError)
  | payloadTooLarge
  | datagramTooSmall (maxDatagram : Nat)
  deriving DecidableEq

def satMul (limit a b : Nat) : Nat := min (a * b) limit

def combinedHeader : Nat := commonHeaderLen + videoHeaderLen

/-- The bytes of fragment `fragIdx`, cut out of the frame by its saturated bounds. -/
def fragmentChunk (data : Bytes) (chunkSize fragIdx : Nat) : Bytes :=
  let start := satMul u64Max fragIdx chunkSize
  let stop := min (satMul u64Max (fragIdx + 1) chunkSize) data.length
  (data.drop start).take (stop - start)

def fragmentCommon (packet : EncodedPacket) (seqStart : UInt16) (chunkSize numFrags fragIdx : Nat) : CommonHeader where
  channel := .video
  flags := ⟨1 < UInt8.ofNat numFrags,fragIdx + 1 == numFrags⟩
  sequence := seqStart + if fragIdx ≤ u16Max then UInt16.ofNat fragIdx else UInt16.ofNat u16Max
  timestampUs := packet.captureTsUs &&& 0xFFFFFFFF
  payloadLen := UInt16.ofNat (videoHeaderLen + (fragmentChunk packet.data chunkSize fragIdx).length)

def fragmentVideo (packet : EncodedPacket) (numFrags fragIdx : Nat) : VideoHeader where
  frameId := packet.frameId &&& maxFrameId
  fragIndex := UInt8.ofNat fragIdx
  totalFrags := UInt8.ofNat numFrags
  codec := packet.codec
  frameType := packet.frameType
  priority := .high
  monitorId := 0
  marker := fragIdx + 1 == numFrags
  encodeTsUs := packet.captureTsUs &&& 0xFFFFFFFF

def buildFragment (packet : EncodedPacket) (seqStart : UInt16) (chunkSize numFrags fragIdx : Nat) :
    Except PacketizeError Bytes :=
  let chunk := fragmentChunk packet.data chunkSize fragIdx
  if u16Max < videoHeaderLen + chunk.length then .error .payloadTooLarge
  else if 255 < fragIdx then .error (.tooManyFragments fragIdx)
  else
    match (fragmentVideo packet numFrags fragIdx).encode with
    | .error e => .error (.protocol e)
    | .ok videoBytes => .ok ((fragmentCommon packet seqStart chunkSize numFrags fragIdx).encode ++ videoBytes ++ chunk)

def fragment (packet : EncodedPacket) (seqStart : UInt16) (maxDatagram : Nat) : Except PacketizeError (List Bytes) :=
  if maxDatagram ≤ combinedHeader then .error (.datagramTooSmall maxDatagram)
  else
    let chunkSize := maxDatagram - combinedHeader
    let numFrags := if packet.data.isEmpty then 1 else Chunks.count chunkSize packet.data
    if 255 < numFrags then .error (.tooManyFragments numFrags)
    else (List.range numFrags).mapM (buildFragment packet seqStart chunkSize numFrags)

def maxBufferedFrames : Nat := 32

structure FrameBuffer where
  slots : List (Option Bytes)
  totalFrags : UInt8
  received : Nat
  codec : Codec
  frameType : FrameType
  frameId : UInt64
  captureTsUs : UInt64
  deriving DecidableEq

structure Reassembler where
  buffers : AssocMap Nat FrameBuffer
  deriving DecidableEq

namespace FrameBuffer

def new (common : CommonHeader) (video : VideoHeader) : FrameBuffer where
  slots := List.replicate video.totalFrags.toNat none
  totalFrags := video.totalFrags
  received := 0
  codec := video.codec
  frameType := video.frameType
  frameId := video.frameId
  captureTsUs := common.timestampUs

/-- Puts a fragment into its slot; absent when the fragment is discarded. -/
def store (buf : FrameBuffer) (video : VideoHeader) (datagram : Bytes) : Option FrameBuffer :=
  if video.totalFrags ≠ buf.totalFrags then none
  else if buf.totalFrags ≤ video.fragIndex then none
  else
    match buf.slots[video.fragIndex.toNat]? with
    | none => none
    | some (some _) => none
    | some none =>
      if datagram.length < combinedHeader then none
      else some { buf with
        slots := buf.slots.set video.fragIndex.toNat (some (datagram.drop combinedHeader))
        received := satAdd u64Max buf.received 1 }

def packet (buf : FrameBuffer) : EncodedPacket where
  data := buf.slots.reduceOption.flatten
  codec := buf.codec
  frameId := buf.frameId
  captureTsUs := buf.captureTsUs
  frameType := buf.frameType

end FrameBuffer

/-- The headers of a video fragment; absent for anything else. -/
def videoFragment (datagram : Bytes) : Option (CommonHeader × VideoHeader) :=
  match CommonHeader.decode datagram with
  | .error _ => none
  | .ok common =>
    if common.channel ≠ .video then none
    else
      match VideoHeader.decode (datagram.drop commonHeaderLen) with
      | .error _ => none
      | .ok video =>
        if video.totalFrags = 0 then none
        else if video.totalFrags ≤ video.fragIndex then none
        else some (common,video)

def frameKey (video : VideoHeader) : Nat := (video.frameId &&& maxFrameId).toNat

namespace Reassembler

def new : Reassembler := ⟨AssocMap.empty⟩

/-- Drops the frame with the lowest key when a new frame comes to a full reassembler. -/
def makeRoom (buffers : AssocMap Nat FrameBuffer) (key : Nat) : AssocMap Nat FrameBuffer :=
  if buffers.contains key = false ∧ maxBufferedFrames ≤ buffers.size then
    match (buffers.entries.map Prod.fst).min? with
    | some oldest => buffers.erase oldest
    | none => buffers
  else buffers

/-- The buffer of a key, created when there is none. -/
def entry (buffers : AssocMap Nat FrameBuffer) (key : Nat) (fresh : FrameBuffer) :
    FrameBuffer × AssocMap Nat FrameBuffer :=
  match buffers.get? key with
  | some buf => (buf,buffers)
  | none => (fresh,buffers.insert key fresh)

def ingest (r : Reassembler) (datagram : Bytes) : Option EncodedPacket × Reassembler :=
  match videoFragment datagram with
  | none => (none,r)
  | some (common,video) =>
    let key := frameKey video
    let found := entry (makeRoom r.buffers key) key (FrameBuffer.new common video)
    match found.1.store video datagram with
    | none => (none,⟨found.2⟩)
    | some buf =>
      if buf.received = buf.totalFrags.toNat then (some buf.packet,⟨found.2.erase key⟩)
      else (none,⟨found.2.insert key buf⟩)

end Reassembler

end Streamhaul
