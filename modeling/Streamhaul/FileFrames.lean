import Streamhaul.ShpHeaders

/-! File-transfer messages: the header in front of every chunk, and the records that offer,
accept and complete a transfer. -/
namespace Streamhaul

def maxFileName : Nat := 255
def maxFileChunk : UInt32 := 1024 * 1024
def fileChunkHeaderLen : Nat := 21
def chunkFlagLast : UInt8 := 0x01
def chunkFlagsReserved : UInt8 := 0xFE

abbrev Digest := Vector UInt8 32

def checkChunkSize (value : UInt32) : Except ProtocolError Unit :=
  if value = 0 ∨ maxFileChunk < value then .error (.fileChunkTooLarge value.toNat)
  else .ok ()

structure FileOffer where
  transferId : UInt64
  totalSize : UInt64
  chunkSize : UInt32
  sha256 : Digest
  name : Bytes
  deriving DecidableEq

structure FileAccept where
  transferId : UInt64
  resumeOffset : UInt64
  deriving DecidableEq

structure FileComplete where
  transferId : UInt64
  ok : Bool
  deriving DecidableEq

structure FileChunkHeader where
  transferId : UInt64
  offset : UInt64
  len : UInt32
  last : Bool
  deriving DecidableEq

namespace FileChunkHeader

def wire (header : FileChunkHeader) : Bytes :=
  be64 header.transferId ++ be64 header.offset ++ be32 header.len ++ [if header.last then chunkFlagLast else 0]

def encode (header : FileChunkHeader) : Except ProtocolError Bytes :=
  match checkChunkSize header.len with
  | .error e => .error e
  | .ok () => .ok header.wire

def decode (data : Bytes) : Except ProtocolError FileChunkHeader :=
  if data.length < fileChunkHeaderLen then .error (.truncated fileChunkHeaderLen data.length)
  else
    let len := UInt32.ofNat (fromBeBytes ((data.drop 16).take 4))
    match checkChunkSize len with
    | .error e => .error e
    | .ok () =>
      let flags := data.getD 20 0
      if flags &&& chunkFlagsReserved ≠ 0 then .error .reservedBitsSet
      else .ok {
        transferId := UInt64.ofNat (fromBeBytes (data.take 8))
        offset := UInt64.ofNat (fromBeBytes ((data.drop 8).take 8))
        len := len
        last := flags &&& chunkFlagLast != 0 }

def Valid (header : FileChunkHeader) : Prop := header.len ≠ 0 ∧ header.len ≤ maxFileChunk

theorem checkChunkSize_eq {value : UInt32} (nonzero : value ≠ 0) (bounded : value ≤ maxFileChunk) :
    checkChunkSize value = .ok () := by
  rw [checkChunkSize,if_neg]
  rintro (zero | large)
  · exact nonzero zero
  · exact UInt32.not_lt.mpr bounded large

theorem checkChunkSize_ok {value : UInt32} (checked : checkChunkSize value = .ok ()) : value ≠ 0 ∧ value ≤ maxFileChunk := by
  unfold checkChunkSize at checked
  split_ifs at checked with bad
  exact ⟨fun zero => bad (.inl zero),UInt32.not_lt.mp (fun large => bad (.inr large))⟩

@[simp] theorem length_wire (header : FileChunkHeader) : header.wire.length = fileChunkHeaderLen := by
  simp [wire,fileChunkHeaderLen]

variable {header : FileChunkHeader}

theorem encode_eq (valid : header.Valid) : header.encode = .ok header.wire := by
  rw [encode,checkChunkSize_eq valid.1 valid.2]

theorem decode_wire (valid : header.Valid) : decode header.wire = .ok header := by
  obtain ⟨transferId,offset,len,last⟩ := header
  have long : ¬(wire ⟨transferId,offset,len,last⟩).length < fileChunkHeaderLen := by simp
  have id : (wire ⟨transferId,offset,len,last⟩).take 8 = be64 transferId := by
    simp only [wire,List.append_assoc]
    exact List.take_left' (length_be64 _)
  have start : ((wire ⟨transferId,offset,len,last⟩).drop 8).take 8 = be64 offset := by
    simp only [wire,List.append_assoc]
    rw [List.drop_left' (length_be64 _)]
    exact List.take_left' (length_be64 _)
  have size : ((wire ⟨transferId,offset,len,last⟩).drop 16).take 4 = be32 len := by
    simp only [wire,List.append_assoc]
    rw [← List.append_assoc,List.drop_left' (by simp)]
    exact List.take_left' (length_be32 _)
  have flags : (wire ⟨transferId,offset,len,last⟩).getD 20 0 = if last then chunkFlagLast else 0 := by
    have front : (be64 transferId ++ be64 offset ++ be32 len).length = 20 := by simp
    have behind := getD_append (be64 transferId ++ be64 offset ++ be32 len) [if last then chunkFlagLast else 0] 0
    rw [front] at behind
    exact behind
  unfold decode
  rw [if_neg long,id,start,size,flags]
  simp only [ofNat_fromBeBytes_be32,ofNat_fromBeBytes_be64]
  rw [checkChunkSize_eq valid.1 valid.2]
  cases last <;> rfl

theorem valid_of_decode {data : Bytes} (decoded : decode data = .ok header) : header.Valid := by
  unfold decode at decoded
  split at decoded
  · cases decoded
  · simp only at decoded
    cases checked : checkChunkSize (UInt32.ofNat (fromBeBytes ((data.drop 16).take 4))) with
    | error e =>
      rw [checked] at decoded
      cases decoded
    | ok _ =>
      rw [checked] at decoded
      simp only at decoded
      split at decoded
      · cases decoded
      · rw [← Except.ok.inj decoded]
        exact checkChunkSize_ok checked

end FileChunkHeader

end Streamhaul
