import Streamhaul.Chunks
import Streamhaul.FileNames

/-! The file receiver of the browser, and its lockstep with the receiver of the host. The browser
writes into a buffer of the offered size and keeps a completed flag; its numbers are doubles, so
sums above the safe integers are rounded. -/
namespace Streamhaul

/-- A natural number as a double: 53 significant bits, ties to even. -/
def toDouble (n : Nat) : Nat :=
  let ulp := 2 ^ (n.log2 - 52)
  if 2 * (n % ulp) < ulp ∨ 2 * (n % ulp) = ulp ∧ n / ulp % 2 = 0 then n / ulp * ulp
  else (n / ulp + 1) * ulp

theorem toDouble_of_lt {n : Nat} (safe : n < 2 ^ 53) : toDouble n = n := by
  have exponent : n.log2 - 52 = 0 := by
    rcases Nat.eq_zero_or_pos n with rfl | positive
    · rfl
    · have := (Nat.log2_lt positive.ne').mpr safe
      omega
  simp [toDouble,exponent,Nat.mod_one]

theorem le_toDouble {n : Nat} (large : 2 ^ 53 ≤ n) : 2 ^ 53 ≤ toDouble n := by
  have nonzero : n ≠ 0 := by
    rintro rfl
    exact absurd large (by decide)
  have exponent : 53 ≤ n.log2 := (Nat.le_log2 nonzero).mpr large
  have power : 2 ^ 53 ≤ 2 ^ 52 * 2 ^ (n.log2 - 52) := by
    rw [← Nat.pow_add]
    exact Nat.pow_le_pow_right (by decide) (by omega)
  have below : 2 ^ 52 * 2 ^ (n.log2 - 52) ≤ n := by
    rw [← Nat.pow_add,Nat.add_sub_cancel' (by omega)]
    exact Nat.log2_self_le nonzero
  have quotient : 2 ^ 52 ≤ n / 2 ^ (n.log2 - 52) := (Nat.le_div_iff_mul_le (Nat.two_pow_pos _)).mpr below
  have rounded : 2 ^ 53 ≤ n / 2 ^ (n.log2 - 52) * 2 ^ (n.log2 - 52) := power.trans (Nat.mul_le_mul_right _ quotient)
  unfold toDouble
  simp only
  split_ifs
  · exact rounded
  · exact rounded.trans (Nat.mul_le_mul_right _ (Nat.le_succ _))

/-- A sum of safe integers compares with a safe integer as if it were exact. -/
theorem toDouble_add_le_iff {a b total : Nat} (safe : total < 2 ^ 53) : toDouble (a + b) ≤ total ↔ a + b ≤ total := by
  by_cases exact : a + b < 2 ^ 53
  · rw [toDouble_of_lt exact]
  · have := le_toDouble (Nat.not_lt.mp exact)
    omega

structure WasmFileOffer where
  transferId : Nat
  totalSize : Nat
  sha256 : Bytes
  name : Bytes
  deriving DecidableEq

def FileOffer.toWasm (offer : FileOffer) : WasmFileOffer :=
  ⟨toDouble offer.transferId.toNat,toDouble offer.totalSize.toNat,offer.sha256.toList,offer.name⟩

structure WasmFileChunkHeader where
  transferId : Nat
  offset : Nat
  len : Nat
  last : Bool
  deriving DecidableEq

inductive WebFileError where
  | transfer (e : FileTransferError)
  | bridge (e : ProtocolError)
  | notSafeInteger (field : String) (value : UInt64)
  deriving DecidableEq

def maxSafeU64 : UInt64 := 9007199254740991

def ensureSafeU64 (value : UInt64) (field : String) : Except WebFileError Unit :=
  if maxSafeU64 < value then .error (.notSafeInteger field value) else .ok ()

def decodeFileChunkHeader (data : Bytes) : Except WebFileError WasmFileChunkHeader :=
  match FileChunkHeader.decode data with
  | .error e => .error (.bridge e)
  | .ok inner =>
    match ensureSafeU64 inner.transferId "transfer_id" with
    | .error e => .error e
    | .ok () =>
      match ensureSafeU64 inner.offset "offset" with
      | .error e => .error e
      | .ok () => .ok ⟨toDouble inner.transferId.toNat,toDouble inner.offset.toNat,inner.len.toNat,inner.last⟩

structure FileTransferReceiver where
  transferId : Nat
  totalSize : Nat
  expectedSha : Bytes
  safeName : Text
  cap : Nat
  buffer : Bytes
  receivedLen : Nat
  complete : Bool
  deriving DecidableEq

namespace FileTransferReceiver

/-- The constructor: a zeroed buffer of the offered size with the retained bytes in front. -/
def create (transferId totalSize : Nat) (expectedSha : Bytes) (safeName : Text) (cap : Nat) (alreadyHave : Bytes) :
    FileTransferReceiver where
  transferId := transferId
  totalSize := totalSize
  expectedSha := expectedSha
  safeName := safeName
  cap := cap
  buffer := Chunks.writeAt (List.replicate totalSize 0) 0 (alreadyHave.take totalSize)
  receivedLen := alreadyHave.length
  complete := totalSize ≤ alreadyHave.length

def accept (offer : WasmFileOffer) (alreadyHave : Bytes) (cap : Nat) :
    Except FileTransferError (FileTransferReceiver × Nat) :=
  match sanitizeFileName offer.name with
  | .error e => .error e
  | .ok safeName =>
    let totalSize := offer.totalSize
    let resumeOffset := alreadyHave.length
    if cap < totalSize then .error ⟨s!"offered size {totalSize} exceeds the {cap}-byte aggregate buffer cap"⟩
    else if offer.sha256.length ≠ 32 then .error ⟨"offer carries a malformed (non-32-byte) digest"⟩
    else if totalSize < resumeOffset then .error ⟨s!"resume offset {resumeOffset} exceeds total size {totalSize}"⟩
    else .ok (create offer.transferId totalSize offer.sha256 safeName cap alreadyHave,resumeOffset)

def onChunk (w : FileTransferReceiver) (frame : Bytes) : Except WebFileError Bool × FileTransferReceiver :=
  if w.complete then (.error (.transfer ⟨"transfer already complete: spurious chunk rejected"⟩),w)
  else if frame.length < fileChunkHeaderLen then
    (.error (.transfer ⟨"chunk frame shorter than the 21-byte header"⟩),w)
  else
    match decodeFileChunkHeader (frame.take fileChunkHeaderLen) with
    | .error e => (.error e,w)
    | .ok ⟨transferId,offset,len,last⟩ =>
      let payload := frame.drop fileChunkHeaderLen
      let actual := payload.length
      let wanted := w.transferId
      let expected := w.receivedLen
      let total := w.totalSize
      let cap := w.cap
      let stop := toDouble (offset + len)
      if transferId ≠ wanted then
        (.error (.transfer ⟨s!"chunk for unknown transfer id {transferId} (expected {wanted})"⟩),w)
      else if len ≠ actual then (.error (.transfer ⟨s!"chunk len {len} != payload length {actual}"⟩),w)
      else if offset ≠ expected then
        (.error (.transfer ⟨s!"chunk offset {offset} is not the expected {expected} (gap/overlap/reorder)"⟩),w)
      else if total < stop then
        (.error (.transfer ⟨s!"chunk [{offset}, {stop}) exceeds total size {total}"⟩),w)
      else if cap < stop then (.error (.transfer ⟨s!"reassembly {stop} exceeds the {cap}-byte cap"⟩),w)
      else if last ∧ stop ≠ total then
        (.error (.transfer ⟨s!"LAST chunk ends at {stop} but total size is {total}"⟩),w)
      else
        (.ok (decide (total ≤ stop)),{ w with
          buffer := Chunks.writeAt w.buffer offset payload
          receivedLen := stop
          complete := decide (total ≤ stop) })

def finish (digest : Bytes → Digest) (w : FileTransferReceiver) : Except FileTransferError Bytes :=
  let received := w.receivedLen
  let total := w.totalSize
  if received ≠ total then .error ⟨s!"incomplete: have {received} of {total} bytes"⟩
  else if (digest w.buffer).toList ≠ w.expectedSha then
    .error ⟨"integrity check failed: reassembled SHA-256 does not match the offer"⟩
  else .ok w.buffer

def received (w : FileTransferReceiver) : Bytes := w.buffer.take w.receivedLen

end FileTransferReceiver

theorem maxSafeU64_lt_iff (value : UInt64) : ¬maxSafeU64 < value ↔ value.toNat < 2 ^ 53 := by
  rw [UInt64.not_lt,UInt64.le_iff_toNat_le,maxSafeU64]
  simp only [UInt64.reduceToNat]
  omega

theorem ensureSafeU64_cases (value : UInt64) (field : String) :
    (value.toNat < 2 ^ 53 ∧ ensureSafeU64 value field = .ok ()) ∨
      (¬value.toNat < 2 ^ 53 ∧ ∃ e, ensureSafeU64 value field = .error e) := by
  unfold ensureSafeU64
  by_cases large : maxSafeU64 < value
  · exact .inr ⟨fun safe => (maxSafeU64_lt_iff value).mpr safe large,_,if_pos large⟩
  · exact .inl ⟨(maxSafeU64_lt_iff value).mp large,if_neg large⟩

/-- A header with safe integers is read exactly; any other is refused. -/
theorem decodeFileChunkHeader_cases (data : Bytes) :
    (∃ header, FileChunkHeader.decode data = .ok header ∧ header.transferId.toNat < 2 ^ 53 ∧ header.offset.toNat < 2 ^ 53 ∧
        decodeFileChunkHeader data = .ok ⟨header.transferId.toNat,header.offset.toNat,header.len.toNat,header.last⟩) ∨
      ((∀ header, FileChunkHeader.decode data = .ok header →
        ¬(header.transferId.toNat < 2 ^ 53 ∧ header.offset.toNat < 2 ^ 53)) ∧
        ∃ e, decodeFileChunkHeader data = .error e) := by
  unfold decodeFileChunkHeader
  cases decoded : FileChunkHeader.decode data with
  | error e => exact .inr ⟨fun header same => (nomatch same),_,rfl⟩
  | ok inner =>
    rcases ensureSafeU64_cases inner.transferId "transfer_id" with ⟨safeId,first⟩ | ⟨largeId,e,first⟩
    · rcases ensureSafeU64_cases inner.offset "offset" with ⟨safeOffset,second⟩ | ⟨largeOffset,e,second⟩
      · refine .inl ⟨inner,rfl,safeId,safeOffset,?_⟩
        simp only [first,second,toDouble_of_lt safeId,toDouble_of_lt safeOffset]
      · refine .inr ⟨?_,e,by simp only [first,second]⟩
        rintro header same ⟨-,safe⟩
        exact largeOffset (Except.ok.inj same ▸ safe)
    · refine .inr ⟨?_,e,by simp only [first]⟩
      rintro header same ⟨safe,-⟩
      exact largeId (Except.ok.inj same ▸ safe)

namespace FileTransferReceiver

/-- What a frame has to satisfy to be taken by the browser. -/
structure Fits (w : FileTransferReceiver) (frame : Bytes) (header : FileChunkHeader) : Prop where
  ready : w.complete = false
  long : fileChunkHeaderLen ≤ frame.length
  decoded : FileChunkHeader.decode (frame.take fileChunkHeaderLen) = .ok header
  safeId : header.transferId.toNat < 2 ^ 53
  safeOffset : header.offset.toNat < 2 ^ 53
  transfer : header.transferId.toNat = w.transferId
  len : header.len.toNat = (frame.drop fileChunkHeaderLen).length
  offset : header.offset.toNat = w.receivedLen
  total : toDouble (header.offset.toNat + header.len.toNat) ≤ w.totalSize
  cap : toDouble (header.offset.toNat + header.len.toNat) ≤ w.cap
  last : header.last = true → toDouble (header.offset.toNat + header.len.toNat) = w.totalSize

variable {w : FileTransferReceiver} {frame : Bytes}

theorem onChunk_fits {header : FileChunkHeader} (fits : w.Fits frame header) :
    w.onChunk frame =
      (.ok (decide (w.totalSize ≤ toDouble (header.offset.toNat + header.len.toNat))),{ w with
        buffer := Chunks.writeAt w.buffer header.offset.toNat (frame.drop fileChunkHeaderLen)
        receivedLen := toDouble (header.offset.toNat + header.len.toNat)
        complete := decide (w.totalSize ≤ toDouble (header.offset.toNat + header.len.toNat)) }) := by
  have decoded : decodeFileChunkHeader (frame.take fileChunkHeaderLen) =
      .ok ⟨header.transferId.toNat,header.offset.toNat,header.len.toNat,header.last⟩ := by
    rcases decodeFileChunkHeader_cases (frame.take fileChunkHeaderLen) with ⟨inner,same,-,-,decoded⟩ | ⟨refused,-⟩
    · rw [fits.decoded] at same
      obtain rfl := Except.ok.inj same
      exact decoded
    · exact absurd ⟨fits.safeId,fits.safeOffset⟩ (refused header fits.decoded)
  unfold onChunk
  rw [fits.ready,if_neg Bool.false_ne_true,if_neg (Nat.not_lt.mpr fits.long),decoded]
  simp only
  rw [if_neg (not_not.mpr fits.transfer),if_neg (not_not.mpr fits.len),if_neg (not_not.mpr fits.offset),
    if_neg (Nat.not_lt.mpr fits.total),if_neg (Nat.not_lt.mpr fits.cap),if_neg]
  rintro ⟨flagged,short⟩
  exact short (fits.last flagged)

theorem onChunk_cases (w : FileTransferReceiver) (frame : Bytes) :
    (∃ header, w.Fits frame header) ∨ ∃ e, w.onChunk frame = (.error e,w) := by
  unfold onChunk
  by_cases ready : w.complete = true
  · exact .inr ⟨_,if_pos ready⟩
  rw [if_neg ready]
  by_cases short : frame.length < fileChunkHeaderLen
  · exact .inr ⟨_,if_pos short⟩
  rw [if_neg short]
  rcases decodeFileChunkHeader_cases (frame.take fileChunkHeaderLen) with ⟨header,decoded,safeId,safeOffset,read⟩ | ⟨-,e,read⟩
  swap
  · rw [read]
    exact .inr ⟨e,rfl⟩
  rw [read]
  simp only
  by_cases transfer : header.transferId.toNat = w.transferId
  swap
  · exact .inr ⟨_,if_pos transfer⟩
  rw [if_neg (not_not.mpr transfer)]
  by_cases len : header.len.toNat = (frame.drop fileChunkHeaderLen).length
  swap
  · exact .inr ⟨_,if_pos len⟩
  rw [if_neg (not_not.mpr len)]
  by_cases offset : header.offset.toNat = w.receivedLen
  swap
  · exact .inr ⟨_,if_pos offset⟩
  rw [if_neg (not_not.mpr offset)]
  by_cases total : w.totalSize < toDouble (header.offset.toNat + header.len.toNat)
  · exact .inr ⟨_,if_pos total⟩
  rw [if_neg total]
  by_cases cap : w.cap < toDouble (header.offset.toNat + header.len.toNat)
  · exact .inr ⟨_,if_pos cap⟩
  rw [if_neg cap]
  by_cases last : header.last ∧ toDouble (header.offset.toNat + header.len.toNat) ≠ w.totalSize
  · exact .inr ⟨_,if_pos last⟩
  exact .inl ⟨header,Bool.eq_false_iff.mpr ready,Nat.not_lt.mp short,decoded,safeId,safeOffset,transfer,len,offset,
    Nat.not_lt.mp total,Nat.not_lt.mp cap,fun flagged => not_not.mp (fun short => last ⟨flagged,short⟩)⟩

end FileTransferReceiver

/-- The two receivers hold the same transfer. -/
structure FileLockstep {H : Type} (r : FileReceiver H) (w : FileTransferReceiver) : Prop where
  transferId : w.transferId = r.transferId.toNat
  safeId : r.transferId.toNat < 2 ^ 53
  totalSize : w.totalSize = r.totalSize.toNat
  safeTotal : r.totalSize.toNat < 2 ^ 53
  expectedSha : w.expectedSha = r.expectedSha.toList
  cap : w.cap = r.cap.toNat
  receivedLen : w.receivedLen = r.received.length
  buffer : ∃ rest, w.buffer = r.received ++ rest ∧ r.received.length + rest.length = r.totalSize.toNat
  capped : r.totalSize.toNat ≤ r.cap.toNat
  complete : w.complete = decide (r.totalSize.toNat ≤ r.received.length)

namespace FileLockstep

variable {H : Type} {r : FileReceiver H} {w : FileTransferReceiver} {frame : Bytes} {header : FileChunkHeader}

theorem within (same : FileLockstep r w) : r.received.length ≤ r.totalSize.toNat := by
  obtain ⟨rest,-,size⟩ := same.buffer
  omega

/-- The end of a chunk inside the file is the same number on both sides. -/
theorem end_exact (same : FileLockstep r w) {offset len : Nat} (stop : offset + len ≤ r.totalSize.toNat) :
    toDouble (offset + len) = offset + len ∧ satAdd u64Max offset len = offset + len := by
  have safe := same.safeTotal
  exact ⟨toDouble_of_lt (by omega),satAdd_of_le (by unfold u64Max; omega)⟩


/-- The two receivers take the same frames. -/
theorem fits_iff (same : FileLockstep r w) : r.Fits frame header ↔ w.Fits frame header := by
  have within := same.within
  have safe := same.safeTotal
  have capped := same.capped
  constructor
  · intro fits
    have valid := FileChunkHeader.valid_of_decode fits.decoded
    have positive : 0 < header.len.toNat := by
      apply Nat.pos_of_ne_zero
      intro zero
      exact valid.1 (UInt32.toNat_inj.mp zero)
    have bounded := fits.total
    have offset := fits.offset
    simp only [satAdd,u64Max] at bounded
    have stop : header.offset.toNat + header.len.toNat ≤ r.totalSize.toNat := by omega
    obtain ⟨exact,saturated⟩ := same.end_exact stop
    refine ⟨?_,fits.long,fits.decoded,fits.transfer ▸ same.safeId,by omega,?_,fits.len,?_,?_,?_,?_⟩
    · rw [same.complete,decide_eq_false_iff_not]
      omega
    · rw [same.transferId,fits.transfer]
    · rw [same.receivedLen,fits.offset]
    · rw [exact,same.totalSize]
      exact stop
    · rw [exact,same.cap]
      omega
    · intro flagged
      rw [exact,same.totalSize,← fits.last flagged,saturated]
  · intro fits
    have stop : header.offset.toNat + header.len.toNat ≤ r.totalSize.toNat :=
      (toDouble_add_le_iff safe).mp (fits.total.trans_eq same.totalSize)
    obtain ⟨exact,saturated⟩ := same.end_exact stop
    refine ⟨fits.long,fits.decoded,?_,fits.len,?_,?_,?_,?_⟩
    · exact UInt64.toNat_inj.mp (fits.transfer.trans same.transferId)
    · exact fits.offset.trans same.receivedLen
    · rw [saturated]
      exact stop
    · rw [saturated]
      omega
    · intro flagged
      rw [saturated,← exact,fits.last flagged,same.totalSize]

theorem taken (sha : Sha256 H) (same : FileLockstep r w) (fits : r.Fits frame header) :
    FileLockstep (r.onChunk sha frame).2 (w.onChunk frame).2 ∧
      ∃ flag, (r.onChunk sha frame).1 = .ok flag ∧ (w.onChunk frame).1 = .ok flag := by
  have fits' := same.fits_iff.mp fits
  obtain ⟨rest,buffer,size⟩ := same.buffer
  have safe := same.safeTotal
  have stop : header.offset.toNat + header.len.toNat ≤ r.totalSize.toNat :=
    (toDouble_add_le_iff safe).mp (fits'.total.trans_eq same.totalSize)
  have exact : toDouble (header.offset.toNat + header.len.toNat) =
      r.received.length + (frame.drop fileChunkHeaderLen).length := by
    rw [toDouble_of_lt (by omega),fits.offset,fits.len]
  have written : Chunks.writeAt w.buffer header.offset.toNat (frame.drop fileChunkHeaderLen) =
      (r.received ++ frame.drop fileChunkHeaderLen) ++ rest.drop (frame.drop fileChunkHeaderLen).length := by
    rw [fits.offset]
    exact Chunks.writeAt_eq _ buffer
  have offset := fits.offset
  have len := fits.len
  rw [FileReceiver.onChunk_fits sha fits,FileTransferReceiver.onChunk_fits fits',exact,written,same.totalSize]
  refine ⟨⟨same.transferId,same.safeId,rfl,safe,same.expectedSha,same.cap,?_,?_,same.capped,?_⟩,_,rfl,rfl⟩
  · simp [FileReceiver.taken]
  · refine ⟨rest.drop (frame.drop fileChunkHeaderLen).length,rfl,?_⟩
    simp only [FileReceiver.taken,List.length_append,List.length_drop] at len ⊢
    omega
  · simp [FileReceiver.taken]

/-- One frame: both receivers take it and answer alike, or both refuse it and stay as they are. -/
theorem step (sha : Sha256 H) (same : FileLockstep r w) (frame : Bytes) :
    FileLockstep (r.onChunk sha frame).2 (w.onChunk frame).2 ∧
      (r.onChunk sha frame).1.toOption = (w.onChunk frame).1.toOption := by
  rcases FileReceiver.onChunk_spec sha r frame with ⟨header,fits⟩ | ⟨e,refused⟩
  · obtain ⟨next,flag,first,second⟩ := same.taken sha fits
    exact ⟨next,by rw [first,second]; rfl⟩
  · rcases w.onChunk_cases frame with ⟨header,fits'⟩ | ⟨e',refused'⟩
    · have taken := FileReceiver.onChunk_fits sha (same.fits_iff.mpr fits')
      rw [refused] at taken
      cases (Prod.mk.inj taken).1
    · rw [refused,refused']
      exact ⟨same,rfl⟩

theorem received_eq (same : FileLockstep r w) : w.received = r.received := by
  obtain ⟨rest,buffer,-⟩ := same.buffer
  rw [FileTransferReceiver.received,buffer,same.receivedLen]
  exact List.take_left

end FileLockstep

/-- What a step of a receiver shows: its answer and the bytes it holds. -/
def FileReceiver.shown {H : Type} (e : Machine.Event (FileReceiver H) Bytes (Except FileError Bool)) : Option Bool × Bytes :=
  (e.response.toOption,e.after.received)

def FileTransferReceiver.shown (e : Machine.Event FileTransferReceiver Bytes (Except WebFileError Bool)) :
    Option Bool × Bytes :=
  (e.response.toOption,e.after.received)

section Receivers

variable {H : Type} (sha : Sha256 H) {caps : Capabilities} {offer : FileOffer} {alreadyHave : Bytes} {cap : UInt64}

theorem FileLockstep.finish {r : FileReceiver H} {w : FileTransferReceiver} {parts : List Bytes} (same : FileLockstep r w)
    (holds : FileReceiver.Holds sha offer alreadyHave cap parts r) :
    (w.finish sha.digest).toOption = (r.finish sha).toOption.map Prod.fst := by
  obtain ⟨rest,buffer,size⟩ := same.buffer
  unfold FileTransferReceiver.finish FileReceiver.finish
  simp only [same.receivedLen,same.totalSize,holds.digest]
  by_cases full : r.received.length = r.totalSize.toNat
  · have whole : w.buffer = r.received := by
      have none : rest = [] := List.length_eq_zero_iff.mp (by omega)
      rw [buffer,none,List.append_nil]
    rw [if_neg (not_not.mpr full),whole,same.expectedSha]
    by_cases intact : sha.digest r.received = r.expectedSha
    · rw [if_neg (by simp [intact]),if_neg (by simp [intact,full])]
      rfl
    · rw [if_pos (by simpa [Vector.toList_inj] using intact),if_pos (by simp [intact])]
      rfl
  · rw [if_pos full,if_pos (fun ok => full ok.2)]
    rfl

theorem acceptOffer_eq {name : Text} (granted : caps.contains .file = true) (named : sanitizeName offer.name = .ok name) :
    FileReceiver.acceptOffer sha caps offer alreadyHave cap =
      if cap < offer.totalSize then .error (.tooLarge offer.totalSize cap)
      else if offer.totalSize.toNat < alreadyHave.length then
        .error (.resumeBeyondSize (UInt64.ofNat alreadyHave.length) offer.totalSize)
      else .ok (⟨offer.transferId,offer.totalSize,offer.sha256,sha.update sha.new alreadyHave,alreadyHave,cap⟩,
        ⟨offer.transferId,UInt64.ofNat alreadyHave.length⟩) := by
  unfold FileReceiver.acceptOffer
  rw [granted,if_neg (by decide),named]

/-- An offer with safe fields and an acceptable name is accepted by both receivers or by neither. -/
theorem accept_alike {name name' : Text} (safeId : offer.transferId.toNat < 2 ^ 53) (safeSize : offer.totalSize.toNat < 2 ^ 53)
    (granted : caps.contains .file = true) (named : sanitizeName offer.name = .ok name)
    (named' : sanitizeFileName offer.name = .ok name') :
    (∃ r accept w, FileReceiver.acceptOffer sha caps offer alreadyHave cap = .ok (r,accept) ∧
        FileTransferReceiver.accept offer.toWasm alreadyHave cap.toNat = .ok (w,accept.resumeOffset.toNat) ∧ FileLockstep r w) ∨
      (∃ e, FileReceiver.acceptOffer sha caps offer alreadyHave cap = .error e) ∧
        ∃ e, FileTransferReceiver.accept offer.toWasm alreadyHave cap.toNat = .error e := by
  rw [acceptOffer_eq sha granted named]
  unfold FileTransferReceiver.accept FileOffer.toWasm
  simp only [named',toDouble_of_lt safeId,toDouble_of_lt safeSize,Vector.length_toList,ne_eq,not_true_eq_false,if_false]
  by_cases large : cap < offer.totalSize
  · rw [if_pos large,if_pos (UInt64.lt_iff_toNat_lt.mp large)]
    exact .inr ⟨⟨_,rfl⟩,_,rfl⟩
  rw [if_neg large,if_neg (fun larger => large (UInt64.lt_iff_toNat_lt.mpr larger))]
  by_cases long : offer.totalSize.toNat < alreadyHave.length
  · rw [if_pos long,if_pos long]
    exact .inr ⟨⟨_,rfl⟩,_,rfl⟩
  rw [if_neg long,if_neg long]
  have resume : (UInt64.ofNat alreadyHave.length).toNat = alreadyHave.length := by
    apply UInt64.toNat_ofNat_of_lt'
    simp only [UInt64.size]
    omega
  have fitting : alreadyHave.take offer.totalSize.toNat = alreadyHave := List.take_of_length_le (Nat.not_lt.mp long)
  have capped : offer.totalSize.toNat ≤ cap.toNat := UInt64.le_iff_toNat_le.mp (UInt64.not_lt.mp large)
  refine .inl ⟨_,_,_,rfl,by rw [resume],rfl,safeId,rfl,safeSize,rfl,rfl,rfl,?_,capped,rfl⟩
  refine ⟨(List.replicate offer.totalSize.toNat 0).drop alreadyHave.length,?_,?_⟩
  · rw [FileTransferReceiver.create,fitting]
    exact Chunks.writeAt_eq alreadyHave (List.nil_append _).symm
  · rw [List.length_drop,List.length_replicate]
    exact Nat.add_sub_cancel' (Nat.not_lt.mp long)

/-- Browser and host receivers stay in lockstep over every sequence of frames. -/
theorem receivers_lockstep {name name' : Text} (safeId : offer.transferId.toNat < 2 ^ 53)
    (safeSize : offer.totalSize.toNat < 2 ^ 53) (granted : caps.contains .file = true)
    (named : sanitizeName offer.name = .ok name)
    (named' : sanitizeFileName offer.name = .ok name') :
    ((∃ accepted, FileReceiver.acceptOffer sha caps offer alreadyHave cap = .ok accepted) ↔
        ∃ accepted, FileTransferReceiver.accept offer.toWasm alreadyHave cap.toNat = .ok accepted) ∧
      ∀ r accept w resume, FileReceiver.acceptOffer sha caps offer alreadyHave cap = .ok (r,accept) →
        FileTransferReceiver.accept offer.toWasm alreadyHave cap.toNat = .ok (w,resume) →
        resume = accept.resumeOffset.toNat ∧ w.received = r.received ∧
        ∀ frames, (Machine.trace FileTransferReceiver.onChunk w frames).map FileTransferReceiver.shown =
            (Machine.trace (FileReceiver.onChunk sha) r frames).map FileReceiver.shown ∧
          ((Machine.final FileTransferReceiver.onChunk w frames).finish sha.digest).toOption =
            ((Machine.final (FileReceiver.onChunk sha) r frames).finish sha).toOption.map Prod.fst := by
  rcases accept_alike sha safeId safeSize granted named named' with ⟨r,accept,w,host,web,same⟩ | ⟨⟨e,host⟩,e',web⟩
  swap
  · rw [host,web]
    exact ⟨by simp,fun r accept w resume accepted => nomatch accepted⟩
  rw [host,web]
  refine ⟨by simp,?_⟩
  rintro r' accept' w' resume accepted accepted'
  obtain ⟨rfl,rfl⟩ := Prod.mk.inj (Except.ok.inj accepted)
  obtain ⟨rfl,rfl⟩ := Prod.mk.inj (Except.ok.inj accepted')
  refine ⟨rfl,same.received_eq,fun frames => ?_⟩
  obtain ⟨start,-,-⟩ := FileReceiver.acceptOffer_ok host
  have together : ∀ (r : FileReceiver H) w frame frame', FileLockstep r w → frame = frame' →
      FileLockstep (r.onChunk sha frame).2 (w.onChunk frame').2 ∧
        FileReceiver.shown (Machine.fire (FileReceiver.onChunk sha) r frame) =
        FileTransferReceiver.shown (Machine.fire FileTransferReceiver.onChunk w frame') := by
    rintro r w frame frame' same rfl
    obtain ⟨next,alike⟩ := same.step sha frame
    exact ⟨next,Prod.ext alike next.received_eq.symm⟩
  obtain ⟨shown,ended⟩ := Machine.lockstep _ _ FileLockstep Eq _ _ together same (List.forall₂_refl frames)
  exact ⟨shown.symm,ended.finish sha (start.run frames)⟩

end Receivers

open Transparent (fileHash smallOffer smallReceiver hostileFrames)

/-- A truncated frame, a chunk, its replay and the rest of a file, at both receivers. -/
theorem small_receivers_lockstep :
    ∃ w, FileTransferReceiver.accept smallOffer.toWasm [7] 3 = .ok (w,1) ∧
      (Machine.trace FileTransferReceiver.onChunk w hostileFrames).map FileTransferReceiver.shown =
        (Machine.trace (FileReceiver.onChunk fileHash) smallReceiver hostileFrames).map FileReceiver.shown := by
  have host : FileReceiver.acceptOffer fileHash .file smallOffer [7] 3 = .ok (smallReceiver,⟨1,1⟩) := by decide +kernel
  obtain ⟨alike,together⟩ := @receivers_lockstep _ fileHash .file smallOffer [7] 3 ['f'] ['f'] (by decide) (by decide)
    (by decide)
    (by decide +kernel) (by decide +kernel)
  obtain ⟨⟨w,resume⟩,web⟩ := alike.mp ⟨_,host⟩
  obtain ⟨rfl,-,runs⟩ := together smallReceiver ⟨1,1⟩ w resume host web
  exact ⟨w,web,(runs hostileFrames).1⟩

end Streamhaul
