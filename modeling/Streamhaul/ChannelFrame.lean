import Streamhaul.CryptoPrimitives

/-! The 24-byte channel frame header, its associated data and its nonce. -/
namespace Streamhaul

inductive ChannelId where
  | video | audio | input | clipboard | file | control
  deriving DecidableEq, Repr

def ChannelId.toU8 : ChannelId → UInt8
  | .video => 0
  | .audio => 1
  | .input => 2
  | .clipboard => 3
  | .file => 4
  | .control => 5

def ChannelId.tryFrom (b : UInt8) : Option ChannelId :=
  if b = 0 then some .video
  else if b = 1 then some .audio
  else if b = 2 then some .input
  else if b = 3 then some .clipboard
  else if b = 4 then some .file
  else if b = 5 then some .control
  else none

@[simp] theorem ChannelId.tryFrom_toU8 (c : ChannelId) : ChannelId.tryFrom c.toU8 = some c := by
  cases c <;> rfl

/-- Absolute direction of a frame; the local role decides which one is sent. -/
inductive Direction where
  | i2r | r2i
  deriving DecidableEq, Repr

def Direction.wireByte : Direction → UInt8
  | .i2r => 0x00
  | .r2i => 0x01

def Direction.fromWire (b : UInt8) : Except CryptoError Direction :=
  if b = 0x00 then .ok .i2r
  else if b = 0x01 then .ok .r2i
  else .error (.malformedChannelFrame "unknown direction byte")

def Direction.idx : Direction → Nat
  | .i2r => 0
  | .r2i => 1

@[simp] theorem Direction.fromWire_wireByte (d : Direction) :
    Direction.fromWire d.wireByte = .ok d := by
  cases d <;> rfl

def channelMagic : UInt8 := 0x53
def channelHdrVersion : UInt8 := 0x01
def channelHeaderLen : Nat := 24
def aadPrefix : Bytes := ascii "shp aead v1"

structure ChannelFrameHeader where
  channel : ChannelId
  direction : Direction
  epoch : Nat
  generation : Nat
  seq : Nat
  deriving DecidableEq, Repr

namespace ChannelFrameHeader

/-- Reads the fixed array of 24 bytes; the caller supplies exactly that many. -/
def parse (bytes : Bytes) : Except CryptoError ChannelFrameHeader :=
  if bytes.getD 0 0 ≠ channelMagic then .error (.malformedChannelFrame "bad magic byte")
  else if bytes.getD 1 0 ≠ channelHdrVersion then .error (.malformedChannelFrame "bad header version")
  else
    match ChannelId.tryFrom (bytes.getD 2 0) with
    | none => .error (.malformedChannelFrame "unknown channel id")
    | some channel =>
      match Direction.fromWire (bytes.getD 3 0) with
      | .error e => .error e
      | .ok direction => .ok {
          channel := channel
          direction := direction
          epoch := fromBeBytes ((bytes.drop 4).take 8)
          generation := fromBeBytes ((bytes.drop 12).take 4)
          seq := fromBeBytes ((bytes.drop 16).take 8) }

def encode (header : ChannelFrameHeader) : Bytes :=
  [channelMagic,channelHdrVersion,header.channel.toU8,header.direction.wireByte] ++
    toBeBytes 8 header.epoch ++ toBeBytes 4 header.generation ++ toBeBytes 8 header.seq

def aad (header : ChannelFrameHeader) : Bytes := aadPrefix ++ header.encode

structure Fits (header : ChannelFrameHeader) : Prop where
  epoch : header.epoch ≤ u64Max
  generation : header.generation ≤ u32Max
  seq : header.seq ≤ u64Max

@[simp] theorem length_encode (header : ChannelFrameHeader) : header.encode.length = channelHeaderLen := by
  simp [encode,channelHeaderLen]

theorem parse_fits {bytes : Bytes} {header : ChannelFrameHeader} (parsed : parse bytes = .ok header) :
    header.Fits := by
  have width (start count : Nat) : fromBeBytes ((bytes.drop start).take count) < 256 ^ count :=
    lt_of_lt_of_le (fromBeBytes_lt _) (Nat.pow_le_pow_right (by decide) (List.length_take_le _ _))
  have epoch := width 4 8
  have generation := width 12 4
  have seq := width 16 8
  unfold parse at parsed
  split at parsed
  · contradiction
  split at parsed
  · contradiction
  split at parsed
  · contradiction
  split at parsed
  · contradiction
  cases parsed
  constructor <;> simp only [u64Max,u32Max] <;> omega

theorem parse_encode (header : ChannelFrameHeader) (fits : header.Fits) :
    parse header.encode = .ok header := by
  have epoch : fromBeBytes (toBeBytes 8 header.epoch) = header.epoch :=
    fromBeBytes_of_lt (by have := fits.epoch; simp only [u64Max] at this; omega)
  have generation : fromBeBytes (toBeBytes 4 header.generation) = header.generation :=
    fromBeBytes_of_lt (by have := fits.generation; simp only [u32Max] at this; omega)
  have seq : fromBeBytes (toBeBytes 8 header.seq) = header.seq :=
    fromBeBytes_of_lt (by have := fits.seq; simp only [u64Max] at this; omega)
  have seqBytes : header.encode.drop 16 = toBeBytes 8 header.seq := List.drop_left' (by simp)
  have generationBytes : (header.encode.drop 12).take 4 = toBeBytes 4 header.generation := by
    simp only [encode,List.append_assoc]
    rw [← List.append_assoc _ (toBeBytes 8 header.epoch),List.drop_left' (by simp),
      List.take_left' (by simp)]
  have epochBytes : (header.encode.drop 4).take 8 = toBeBytes 8 header.epoch := by
    simp only [encode,List.append_assoc]
    rw [List.drop_left' (by simp),List.take_left' (by simp)]
  rw [parse,seqBytes,generationBytes,epochBytes,List.take_of_length_le (by simp),epoch,generation,seq]
  simp [encode]

end ChannelFrameHeader

/-- `generation_u32_be || seq_u64_be`, twelve bytes. -/
def buildNonce (generation seq : Nat) : Bytes := toBeBytes 4 generation ++ toBeBytes 8 seq

theorem buildNonce_injective {g g' s s' : Nat} (hg : g ≤ u32Max) (hg' : g' ≤ u32Max)
    (hs : s ≤ u64Max) (hs' : s' ≤ u64Max) (same : buildNonce g s = buildNonce g' s') :
    g = g' ∧ s = s' := by
  simp only [u32Max,u64Max] at *
  obtain ⟨first,second⟩ := List.append_inj same (by simp)
  exact ⟨toBeBytes_injective (by omega) (by omega) first,toBeBytes_injective (by omega) (by omega) second⟩

end Streamhaul
