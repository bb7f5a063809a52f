import Streamhaul.Packetize

/-! Frames with their pixels, and the raw codec, which puts a header with the format and the size in
front of the pixels of a frame. -/
namespace Streamhaul.Media

inductive PixelFormat where
  | bgra8 | i420 | nv12
  deriving DecidableEq

structure Resolution where
  width : UInt32
  height : UInt32
  deriving DecidableEq

inductive MediaError where
  | capture (reason : String)
  | encode (reason : String)
  | decode (reason : String)
  | unsupported (reason : String)
  | frameSize (expected got : Nat)
  deriving DecidableEq

structure VideoFrame where
  data : Bytes
  format : PixelFormat
  resolution : Resolution
  frameId : UInt64
  captureTsUs : UInt64
  deriving DecidableEq

/-- The bytes of a packed frame; the chroma planes of an odd size are rounded up. -/
def PixelFormat.frameLen (format : PixelFormat) (resolution : Resolution) : Nat :=
  let w := resolution.width.toNat
  let h := resolution.height.toNat
  match format with
  | .bgra8 => satMul u64Max (satMul u64Max w h) 4
  | .i420 =>
    let luma := satMul u64Max w h
    let chroma := satMul u64Max ((w + 1) / 2) ((h + 1) / 2)
    satAdd u64Max (satAdd u64Max luma chroma) chroma
  | .nv12 =>
    let luma := satMul u64Max w h
    let chroma := satMul u64Max (satMul u64Max ((w + 1) / 2) ((h + 1) / 2)) 2
    satAdd u64Max luma chroma

def VideoFrame.validateLen (frame : VideoFrame) : Except MediaError Unit :=
  let expected := frame.format.frameLen frame.resolution
  if frame.data.length = expected then .ok () else .error (.frameSize expected frame.data.length)

def rawVersion : UInt8 := 1

def formatToU8 : PixelFormat → UInt8
  | .bgra8 => 0
  | .i420 => 1
  | .nv12 => 2

def formatFromU8 (byte : UInt8) : Option PixelFormat :=
  if byte = 0 then some .bgra8 else if byte = 1 then some .i420 else if byte = 2 then some .nv12 else none

def codecName : Codec → String
  | .h264 => "H264"
  | .h265 => "H265"
  | .av1 => "Av1"
  | .raw => "Raw"

structure RawEncoder where
  deriving DecidableEq

structure RawDecoder where
  deriving DecidableEq

/-- Header and pixels; every raw frame can be decoded on its own. -/
def VideoFrame.rawPacket (frame : VideoFrame) : EncodedPacket where
  data := rawVersion :: formatToU8 frame.format :: (be32 frame.resolution.width ++ be32 frame.resolution.height ++ frame.data)
  codec := .raw
  frameId := frame.frameId
  captureTsUs := frame.captureTsUs
  frameType := .idr

def RawEncoder.encode (frame : VideoFrame) : Except MediaError (Option EncodedPacket) :=
  match frame.validateLen with
  | .error e => .error e
  | .ok () => .ok (some frame.rawPacket)

def RawDecoder.decode (packet : EncodedPacket) : Except MediaError (Option VideoFrame) :=
  if packet.codec ≠ .raw then
    let codec := codecName packet.codec
    .error (.decode s!"raw: unexpected codec {codec}")
  else
    match packet.data with
    | version :: fmt :: w0 :: w1 :: w2 :: w3 :: h0 :: h1 :: h2 :: h3 :: pixels =>
      if version ≠ rawVersion then .error (.decode s!"raw: unknown version {version}")
      else
        match formatFromU8 fmt with
        | none => .error (.decode s!"raw: bad format {fmt}")
        | some format =>
          let resolution : Resolution :=
            ⟨UInt32.ofNat (fromBeBytes [w0,w1,w2,w3]),UInt32.ofNat (fromBeBytes [h0,h1,h2,h3])⟩
          if resolution.width = 0 ∨ resolution.height = 0 then .error (.decode "raw: zero-dimension frame")
          else
            let expected := format.frameLen resolution
            let got := pixels.length
            if got ≠ expected then .error (.decode s!"raw: pixel length {got} != expected {expected}")
            else .ok (some ⟨pixels,format,resolution,packet.frameId,packet.captureTsUs⟩)
    | _ => .error (.decode "raw: truncated header")

theorem formatFromU8_toU8 (format : PixelFormat) : formatFromU8 (formatToU8 format) = some format := by
  cases format <;> rfl

theorem formatToU8_of_from {byte : UInt8} {format : PixelFormat} (read : formatFromU8 byte = some format) :
    formatToU8 format = byte := by
  unfold formatFromU8 at read
  split_ifs at read with first second third <;> cases read
  · exact first.symm
  · exact second.symm
  · exact third.symm

theorem be32_split (n : UInt32) : ∃ a b c d, be32 n = [a,b,c,d] ∧ UInt32.ofNat (fromBeBytes [a,b,c,d]) = n := by
  refine ⟨_,_,_,_,rfl,?_⟩
  exact ofNat_fromBeBytes_be32 n

theorem be32_ofNat (a b c d : UInt8) : be32 (UInt32.ofNat (fromBeBytes [a,b,c,d])) = [a,b,c,d] := by
  have bound := fromBeBytes_lt [a,b,c,d]
  rw [be32,UInt32.toNat_ofNat_of_lt' (by simpa using bound)]
  exact toBeBytes_fromBeBytes [a,b,c,d]

/-- A frame that the codec carries: packed as its format says, and with pixels at all. -/
structure VideoFrame.Sound (frame : VideoFrame) : Prop where
  packed : frame.data.length = frame.format.frameLen frame.resolution
  wide : frame.resolution.width ≠ 0
  high : frame.resolution.height ≠ 0

theorem encode_ok_iff (frame : VideoFrame) (packet : EncodedPacket) :
    RawEncoder.encode frame = .ok (some packet) ↔
      frame.data.length = frame.format.frameLen frame.resolution ∧ frame.rawPacket = packet := by
  unfold RawEncoder.encode VideoFrame.validateLen
  by_cases packed : frame.data.length = frame.format.frameLen frame.resolution <;> simp [packed]

theorem decode_rawPacket {frame : VideoFrame} (sound : frame.Sound) (frameId captureTsUs : UInt64) :
    RawDecoder.decode { frame.rawPacket with frameId := frameId, captureTsUs := captureTsUs } =
      .ok (some { frame with frameId := frameId, captureTsUs := captureTsUs }) := by
  obtain ⟨w0,w1,w2,w3,width,width_back⟩ := be32_split frame.resolution.width
  obtain ⟨h0,h1,h2,h3,height,height_back⟩ := be32_split frame.resolution.height
  have dims : ¬(frame.resolution.width = 0 ∨ frame.resolution.height = 0) := by
    rintro (none | none)
    · exact sound.wide none
    · exact sound.high none
  simp only [RawDecoder.decode,VideoFrame.rawPacket,width,height,List.cons_append,List.nil_append,width_back,height_back,
    formatFromU8_toU8,ne_eq,not_true_eq_false,if_false,dims,sound.packed]

theorem decode_ok {packet : EncodedPacket} {frame : VideoFrame} (decoded : RawDecoder.decode packet = .ok (some frame)) :
    frame.Sound ∧ packet.data = frame.rawPacket.data ∧ packet.codec = .raw ∧ frame.frameId = packet.frameId ∧
      frame.captureTsUs = packet.captureTsUs := by
  unfold RawDecoder.decode at decoded
  split_ifs at decoded with other
  have codec : packet.codec = .raw := not_not.mp other
  split at decoded
  · next version fmt w0 w1 w2 w3 h0 h1 h2 h3 pixels whole =>
    split_ifs at decoded with unknown
    have known : version = rawVersion := not_not.mp unknown
    split at decoded
    · cases decoded
    · next format read =>
      dsimp only at decoded
      split_ifs at decoded with flat length
      rw [Except.ok.injEq,Option.some.injEq] at decoded
      subst decoded
      rw [not_or] at flat
      refine ⟨⟨not_not.mp length,flat.1,flat.2⟩,?_,codec,rfl,rfl⟩
      rw [whole,known]
      simp [VideoFrame.rawPacket,be32_ofNat,formatToU8_of_from read]
  · cases decoded

end Streamhaul.Media
