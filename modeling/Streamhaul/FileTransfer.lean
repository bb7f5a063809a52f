import Streamhaul.FileFrames
import Streamhaul.Machine
import Streamhaul.Text
import Streamhaul.Ugc

/-! File transfer: the sender that cuts a file into chunks from a resume offset on, and the
receiver that takes chunks in order and checks the digest of the whole file. A receiver holds the
prefix it started from and the payloads of the frames it accepted, whatever else it is sent. -/
namespace Streamhaul

inductive FileError where
  | capabilityDenied
  | nameRejected (reason : String)
  | resumeBeyondSize (resume total : UInt64)
  | tooLarge (total cap : UInt64)
  | unknownTransfer (got expected : UInt64)
  | offsetMismatch (expected got : UInt64)
  | chunkBeyondSize (offset : UInt64) (len : UInt32) (total : UInt64)
  | lenMismatch (declared : UInt32) (actual : Nat)
  | lastChunkNotAtEnd (stop total : UInt64)
  | invalidChunkSize (size : UInt32)
  | integrityFailed
  | framing (e : ProtocolError)
  deriving DecidableEq

/-- `char::is_control`: the general category Cc. -/
def isControl (c : Char) : Bool := c.toNat ≤ 0x1f || (0x7f ≤ c.toNat && c.toNat ≤ 0x9f)

def sanitizeName (name : Bytes) : Except FileError Text :=
  if name.isEmpty then .error (.nameRejected "empty")
  else if maxFileName < name.length then .error (.nameRejected "too long")
  else
    match Text.fromUtf8 name with
    | none => .error (.nameRejected "not UTF-8")
    | some s =>
      if s.contains '/' || s.contains '\\' then .error (.nameRejected "contains a path separator")
      else if s.any isControl then .error (.nameRejected "contains a control character")
      else if s = ['.','.'] ∨ s = ['.'] then .error (.nameRejected "path traversal")
      else .ok s

/-- A hash computed piece by piece. -/
structure Sha256 (H : Type) where
  digest : Bytes → Digest
  new : H
  update : H → Bytes → H
  finalize : H → Digest
  incremental : ∀ parts : List Bytes, finalize (parts.foldl update new) = digest parts.flatten

structure FileSender where
  transferId : UInt64
  name : Bytes
  data : Bytes
  chunkSize : UInt32
  sha256 : Digest
  cursor : UInt64
  deriving DecidableEq

namespace FileSender

variable {H : Type}

def new (sha : Sha256 H) (transferId : UInt64) (name data : Bytes) (chunkSize : UInt32) : Except FileError FileSender :=
  match sanitizeName name with
  | .error e => .error e
  | .ok _ =>
    if chunkSize = 0 ∨ maxFileChunk < chunkSize then .error (.invalidChunkSize chunkSize)
    else .ok ⟨transferId,name,data,chunkSize,sha.finalize (sha.update sha.new data),0⟩

def offer (s : FileSender) : FileOffer := ⟨s.transferId,UInt64.ofNat s.data.length,s.chunkSize,s.sha256,s.name⟩

def onAccept (s : FileSender) (accept : FileAccept) : Except FileError FileSender :=
  if accept.transferId ≠ s.transferId then .error (.unknownTransfer accept.transferId s.transferId)
  else if s.data.length < accept.resumeOffset.toNat then
    .error (.resumeBeyondSize accept.resumeOffset (UInt64.ofNat s.data.length))
  else .ok { s with cursor := accept.resumeOffset }

def take (s : FileSender) : Nat := min (s.data.length - s.cursor.toNat) s.chunkSize.toNat

def nextHeader (s : FileSender) : FileChunkHeader :=
  ⟨s.transferId,s.cursor,UInt32.ofNat s.take,decide (s.data.length ≤ s.cursor.toNat + s.take)⟩

def nextChunk (s : FileSender) : Except FileError (Option Bytes) × FileSender :=
  if s.data.length ≤ s.cursor.toNat then (.ok none,s)
  else
    match s.nextHeader.encode with
    | .error e => (.error (.framing e),s)
    | .ok header =>
      (.ok (some (header ++ (s.data.drop s.cursor.toNat).take s.take)),
        { s with cursor := UInt64.ofNat (s.cursor.toNat + s.take) })

def isDone (s : FileSender) : Bool := s.data.length ≤ s.cursor.toNat

end FileSender

/-- The most bytes a `Vec` can hold. -/
def isizeMax : Nat := 2 ^ 63 - 1

structure FileReceiver (H : Type) where
  transferId : UInt64
  totalSize : UInt64
  expectedSha : Digest
  hasher : H
  received : Bytes
  cap : UInt64
  deriving DecidableEq

namespace FileReceiver

variable {H : Type}

def acceptOffer (sha : Sha256 H) (caps : Capabilities) (offer : FileOffer) (alreadyHave : Bytes) (cap : UInt64) :
    Except FileError (FileReceiver H × FileAccept) :=
  if caps.contains .file = false then .error .capabilityDenied
  else
    match sanitizeName offer.name with
    | .error e => .error e
    | .ok _ =>
      if cap < offer.totalSize then .error (.tooLarge offer.totalSize cap)
      else if offer.totalSize.toNat < alreadyHave.length then
        .error (.resumeBeyondSize (UInt64.ofNat alreadyHave.length) offer.totalSize)
      else .ok (⟨offer.transferId,offer.totalSize,offer.sha256,sha.update sha.new alreadyHave,alreadyHave,cap⟩,
        ⟨offer.transferId,UInt64.ofNat alreadyHave.length⟩)

def onChunk (sha : Sha256 H) (r : FileReceiver H) (frame : Bytes) : Except FileError Bool × FileReceiver H :=
  if frame.length < fileChunkHeaderLen then (.error (.framing (.truncated fileChunkHeaderLen frame.length)),r)
  else
    match FileChunkHeader.decode (frame.take fileChunkHeaderLen) with
    | .error e => (.error (.framing e),r)
    | .ok header =>
      let payload := frame.drop fileChunkHeaderLen
      if header.transferId ≠ r.transferId then (.error (.unknownTransfer header.transferId r.transferId),r)
      else if header.len.toNat ≠ payload.length then (.error (.lenMismatch header.len payload.length),r)
      else if header.offset.toNat ≠ r.received.length then
        (.error (.offsetMismatch (UInt64.ofNat r.received.length) header.offset),r)
      else
        let stop := satAdd u64Max header.offset.toNat header.len.toNat
        if r.totalSize.toNat < stop then (.error (.chunkBeyondSize header.offset header.len r.totalSize),r)
        else if r.cap.toNat < stop then (.error (.tooLarge (UInt64.ofNat stop) r.cap),r)
        else if header.last ∧ stop ≠ r.totalSize.toNat then
          (.error (.lastChunkNotAtEnd (UInt64.ofNat stop) r.totalSize),r)
        else
          let received := r.received ++ payload
          (.ok (decide (r.totalSize.toNat ≤ received.length)),
            { r with hasher := sha.update r.hasher payload, received := received })

def finish (sha : Sha256 H) (r : FileReceiver H) : Except FileError (Bytes × FileComplete) :=
  let ok := sha.finalize r.hasher = r.expectedSha ∧ r.received.length = r.totalSize.toNat
  if ¬ok then .error .integrityFailed
  else .ok (r.received,⟨r.transferId,true⟩)

/-- What a frame has to satisfy to be taken. -/
structure Fits (r : FileReceiver H) (frame : Bytes) (header : FileChunkHeader) : Prop where
  long : fileChunkHeaderLen ≤ frame.length
  decoded : FileChunkHeader.decode (frame.take fileChunkHeaderLen) = .ok header
  transfer : header.transferId = r.transferId
  len : header.len.toNat = (frame.drop fileChunkHeaderLen).length
  offset : header.offset.toNat = r.received.length
  total : satAdd u64Max header.offset.toNat header.len.toNat ≤ r.totalSize.toNat
  cap : satAdd u64Max header.offset.toNat header.len.toNat ≤ r.cap.toNat
  last : header.last = true → satAdd u64Max header.offset.toNat header.len.toNat = r.totalSize.toNat

def taken (sha : Sha256 H) (r : FileReceiver H) (payload : Bytes) : FileReceiver H :=
  { r with hasher := sha.update r.hasher payload, received := r.received ++ payload }

variable {sha : Sha256 H} {r : FileReceiver H} {frame : Bytes}

theorem onChunk_fits (sha : Sha256 H) {header : FileChunkHeader} (fits : r.Fits frame header) :
    r.onChunk sha frame = (.ok (decide (r.totalSize.toNat ≤ r.received.length + (frame.drop fileChunkHeaderLen).length)),
      r.taken sha (frame.drop fileChunkHeaderLen)) := by
  unfold onChunk
  rw [if_neg (Nat.not_lt.mpr fits.long),fits.decoded]
  simp only [ne_eq,fits.transfer,not_true_eq_false,if_false,fits.len,fits.offset]
  rw [← fits.len,← fits.offset,if_neg (Nat.not_lt.mpr fits.total),if_neg (Nat.not_lt.mpr fits.cap),if_neg]
  · rw [List.length_append,fits.len,fits.offset]
    rfl
  · rintro ⟨last,short⟩
    exact short (fits.last last)

/-- A frame is taken when it fits; any other frame is answered with an error and changes nothing. -/
theorem onChunk_spec (sha : Sha256 H) (r : FileReceiver H) (frame : Bytes) :
    (∃ header, r.Fits frame header) ∨ ∃ e, r.onChunk sha frame = (.error e,r) := by
  unfold onChunk
  by_cases short : frame.length < fileChunkHeaderLen
  · exact .inr ⟨_,if_pos short⟩
  rw [if_neg short]
  cases decoded : FileChunkHeader.decode (frame.take fileChunkHeaderLen) with
  | error e => exact .inr ⟨_,rfl⟩
  | ok header =>
    simp only
    by_cases transfer : header.transferId = r.transferId
    swap
    · exact .inr ⟨_,if_pos transfer⟩
    rw [if_neg (not_not.mpr transfer)]
    by_cases len : header.len.toNat = (frame.drop fileChunkHeaderLen).length
    swap
    · exact .inr ⟨_,if_pos len⟩
    rw [if_neg (not_not.mpr len)]
    by_cases offset : header.offset.toNat = r.received.length
    swap
    · exact .inr ⟨_,if_pos offset⟩
    rw [if_neg (not_not.mpr offset)]
    by_cases total : r.totalSize.toNat < satAdd u64Max header.offset.toNat header.len.toNat
    · exact .inr ⟨_,if_pos total⟩
    rw [if_neg total]
    by_cases cap : r.cap.toNat < satAdd u64Max header.offset.toNat header.len.toNat
    · exact .inr ⟨_,if_pos cap⟩
    rw [if_neg cap]
    by_cases last : header.last ∧ satAdd u64Max header.offset.toNat header.len.toNat ≠ r.totalSize.toNat
    · exact .inr ⟨_,if_pos last⟩
    exact .inl ⟨header,Nat.not_lt.mp short,decoded,transfer,len,offset,Nat.not_lt.mp total,Nat.not_lt.mp cap,
      fun flagged => not_not.mp (fun short => last ⟨flagged,short⟩)⟩

theorem Fits.length_le {header : FileChunkHeader} (fits : r.Fits frame header)
    (allocated : r.received.length + (frame.drop fileChunkHeaderLen).length ≤ isizeMax) :
    r.received.length + (frame.drop fileChunkHeaderLen).length ≤ r.totalSize.toNat := by
  have total := fits.total
  rw [fits.offset,fits.len] at total
  simp only [satAdd,u64Max] at total
  simp only [isizeMax] at allocated
  omega

def acceptedPayload (e : Machine.Event (FileReceiver H) Bytes (Except FileError Bool)) : Option Bytes :=
  match e.response with
  | .ok _ => some (e.call.drop fileChunkHeaderLen)
  | .error _ => none

def payloads (sha : Sha256 H) (r : FileReceiver H) (frames : List Bytes) : List Bytes :=
  (Machine.trace (onChunk sha) r frames).filterMap acceptedPayload

/-- The receiver holds the prefix it started from and the payloads it has taken, in the bytes and in the hash. -/
structure Holds (sha : Sha256 H) (offer : FileOffer) (alreadyHave : Bytes) (cap : UInt64) (parts : List Bytes)
    (r : FileReceiver H) : Prop where
  transferId : r.transferId = offer.transferId
  totalSize : r.totalSize = offer.totalSize
  expectedSha : r.expectedSha = offer.sha256
  capacity : r.cap = cap
  received : r.received = alreadyHave ++ parts.flatten
  hasher : r.hasher = (alreadyHave :: parts).foldl sha.update sha.new
  within : r.received.length ≤ isizeMax → r.received.length ≤ r.totalSize.toNat

theorem acceptOffer_ok {caps : Capabilities} {offer : FileOffer} {alreadyHave : Bytes} {cap : UInt64} {accept : FileAccept}
    (accepted : acceptOffer sha caps offer alreadyHave cap = .ok (r,accept)) :
    Holds sha offer alreadyHave cap [] r ∧ offer.totalSize ≤ cap ∧
      accept = ⟨offer.transferId,UInt64.ofNat alreadyHave.length⟩ := by
  unfold acceptOffer at accepted
  split at accepted
  · cases accepted
  cases named : sanitizeName offer.name with
  | error e =>
    rw [named] at accepted
    cases accepted
  | ok _ =>
    rw [named] at accepted
    simp only at accepted
    split_ifs at accepted with large long
    obtain ⟨rfl,rfl⟩ := Prod.mk.inj (Except.ok.inj accepted)
    exact ⟨⟨rfl,rfl,rfl,rfl,(List.append_nil _).symm,rfl,fun _ => Nat.not_lt.mp long⟩,UInt64.not_lt.mp large,rfl⟩

variable {offer : FileOffer} {alreadyHave : Bytes} {cap : UInt64} {parts : List Bytes}

theorem Holds.taken {header : FileChunkHeader} (holds : Holds sha offer alreadyHave cap parts r) (fits : r.Fits frame header) :
    Holds sha offer alreadyHave cap (parts ++ [frame.drop fileChunkHeaderLen])
      (r.taken sha (frame.drop fileChunkHeaderLen)) where
  transferId := holds.transferId
  totalSize := holds.totalSize
  expectedSha := holds.expectedSha
  capacity := holds.capacity
  received := by
    rw [FileReceiver.taken,holds.received]
    simp
  hasher := by
    rw [FileReceiver.taken,holds.hasher]
    simp
  within := by
    rw [FileReceiver.taken,List.length_append]
    exact fits.length_le

theorem Holds.run (holds : Holds sha offer alreadyHave cap [] r) (frames : List Bytes) :
    Holds sha offer alreadyHave cap (payloads sha r frames) (Machine.final (onChunk sha) r frames) := by
  have whole := Machine.history_invariant (onChunk sha) acceptedPayload (fun _ _ => True) (Holds sha offer alreadyHave cap)
  refine whole ?_ [] r frames holds (fun _ _ => trivial)
  intro parts r frame _ holds
  rcases onChunk_spec sha r frame with ⟨header,fits⟩ | ⟨e,refused⟩
  · have step := onChunk_fits sha fits
    have emitted : acceptedPayload (Machine.fire (onChunk sha) r frame) = some (frame.drop fileChunkHeaderLen) := by
      simp only [acceptedPayload,Machine.fire,step]
    rw [emitted,step]
    exact holds.taken fits
  · have emitted : acceptedPayload (Machine.fire (onChunk sha) r frame) = none := by
      simp only [acceptedPayload,Machine.fire,refused]
    rw [emitted,refused,Option.toList_none,List.append_nil]
    exact holds

theorem Holds.digest (holds : Holds sha offer alreadyHave cap parts r) : sha.finalize r.hasher = sha.digest r.received := by
  rw [holds.hasher,sha.incremental,holds.received,List.flatten_cons]

theorem Holds.finish_iff (holds : Holds sha offer alreadyHave cap parts r) (bytes : Bytes) (complete : FileComplete) :
    r.finish sha = .ok (bytes,complete) ↔
      bytes = r.received ∧ complete = ⟨offer.transferId,true⟩ ∧ r.received.length = offer.totalSize.toNat ∧
        sha.digest r.received = offer.sha256 := by
  unfold finish
  rw [holds.digest,holds.expectedSha,holds.totalSize,holds.transferId]
  simp only
  by_cases ok : sha.digest r.received = offer.sha256 ∧ r.received.length = offer.totalSize.toNat
  · rw [if_neg (not_not.mpr ok),Except.ok.injEq,Prod.mk.injEq]
    constructor
    · rintro ⟨rfl,rfl⟩
      exact ⟨rfl,rfl,ok.2,ok.1⟩
    · rintro ⟨rfl,rfl,-,-⟩
      exact ⟨rfl,rfl⟩
  · rw [if_pos ok]
    simp only [reduceCtorEq,false_iff]
    rintro ⟨-,-,size,same⟩
    exact ok ⟨same,size⟩

/-- Over every sequence of frames: a refused frame changes nothing, the receiver holds its prefix
and the payloads it took, within the offered size, and it finishes exactly on the offered file.
Lists are not bounded by memory; the bound on the size is about buffers that a `Vec` can hold. -/
theorem hostile_sender_contained {caps : Capabilities} {accept : FileAccept}
    (accepted : acceptOffer sha caps offer alreadyHave cap = .ok (r,accept)) (frames : List Bytes) :
    (∀ e ∈ Machine.trace (onChunk sha) r frames, ∀ error, e.response = .error error → e.after = e.before) ∧
      (Machine.final (onChunk sha) r frames).received = alreadyHave ++ (payloads sha r frames).flatten ∧
      ((Machine.final (onChunk sha) r frames).received.length ≤ isizeMax →
        (Machine.final (onChunk sha) r frames).received.length ≤ offer.totalSize.toNat) ∧ offer.totalSize ≤ cap ∧
      ∀ bytes, (∃ complete, (Machine.final (onChunk sha) r frames).finish sha = .ok (bytes,complete)) ↔
        bytes = (Machine.final (onChunk sha) r frames).received ∧ bytes.length = offer.totalSize.toNat ∧
          sha.digest bytes = offer.sha256 := by
  obtain ⟨start,bounded,-⟩ := acceptOffer_ok accepted
  have holds := start.run frames
  refine ⟨?_,holds.received,holds.totalSize ▸ holds.within,bounded,?_⟩
  · intro e member error failed
    obtain ⟨-,step⟩ := Machine.trace_invariant (onChunk sha) (fun _ _ => True) (fun _ => True) (fun _ _ _ _ => trivial) r frames
      trivial (fun _ _ => trivial) e member
    rw [step] at failed ⊢
    simp only [Machine.fire] at failed ⊢
    rcases onChunk_spec sha e.before e.call with ⟨header,fits⟩ | ⟨_,refused⟩
    · rw [onChunk_fits sha fits] at failed
      cases failed
    · rw [refused]
  · intro bytes
    simp only [holds.finish_iff]
    constructor
    · rintro ⟨complete,rfl,-,size,same⟩
      exact ⟨rfl,size,same⟩
    · rintro ⟨rfl,size,same⟩
      exact ⟨_,rfl,rfl,size,same⟩

end FileReceiver

namespace Transparent

def fileHash : Sha256 Bytes where
  digest bytes := vectorAt 32 bytes 0
  new := []
  update := List.append
  finalize bytes := vectorAt 32 bytes 0
  incremental parts := by
    have joined : ∀ start, parts.foldl List.append start = start ++ parts.flatten := by
      induction parts with
      | nil => simp
      | cons part rest ih =>
        intro start
        rw [List.foldl_cons,ih,List.flatten_cons,← List.append_assoc]
        rfl
    rw [joined,List.nil_append]

def smallOffer : FileOffer := ⟨1,3,1,fileHash.digest [7,8,9],[102]⟩

/-- A truncated frame, a chunk, its replay with other bytes, and the rest of the file. -/
def hostileFrames : List Bytes :=
  [[0],FileChunkHeader.wire ⟨1,1,1,false⟩ ++ [8],FileChunkHeader.wire ⟨1,1,1,false⟩ ++ [0],
    FileChunkHeader.wire ⟨1,2,1,true⟩ ++ [9]]

def smallReceiver : FileReceiver Bytes := ⟨1,3,fileHash.digest [7,8,9],[7],[7],3⟩

end Transparent

open Transparent (fileHash smallOffer smallReceiver hostileFrames)

theorem FileReceiver.replayed_chunk_contained :
    acceptOffer fileHash .file smallOffer [7] 3 = .ok (smallReceiver,⟨1,1⟩) ∧
      (Machine.final (onChunk fileHash) smallReceiver hostileFrames).received =
        [7] ++ (payloads fileHash smallReceiver hostileFrames).flatten ∧
      payloads fileHash smallReceiver hostileFrames = [[8],[9]] ∧
      ∃ complete, (Machine.final (onChunk fileHash) smallReceiver hostileFrames).finish fileHash = .ok ([7,8,9],complete) := by
  have accepted : acceptOffer fileHash .file smallOffer [7] 3 = .ok (smallReceiver,⟨1,1⟩) := by decide +kernel
  have taken : payloads fileHash smallReceiver hostileFrames = [[8],[9]] := by decide +kernel
  obtain ⟨-,received,-,-,finished⟩ := hostile_sender_contained accepted hostileFrames
  refine ⟨accepted,received,taken,(finished [7,8,9]).mpr ⟨?_,rfl,rfl⟩⟩
  rw [received,taken]
  rfl

end Streamhaul
