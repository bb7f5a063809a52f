import Streamhaul.FileTransfer

/-! File transfer over interruptions. An attempt negotiates a resume offset, produces some frames,
delivers some of them and is abandoned; the next attempt starts from the bytes that arrived. The
bytes at the receiver are always a prefix of the file, and an attempt that runs to the end
finishes with the file. -/
namespace Streamhaul

/-- Calls `nextChunk` a number of times, or until the file is sent. -/
def FileSender.produce : Nat → FileSender → Except FileError (List Bytes) × FileSender
  | 0, s => (.ok [],s)
  | n + 1, s =>
    match s.nextChunk with
    | (.error e,s) => (.error e,s)
    | (.ok none,s) => (.ok [],s)
    | (.ok (some frame),s) =>
      match FileSender.produce n s with
      | (.error e,s) => (.error e,s)
      | (.ok frames,s) => (.ok (frame :: frames),s)

/-- What an attempt leaves behind: the frames produced, the deliveries, and both parties. -/
structure Attempt (H : Type) where
  sent : List Bytes
  events : List (Machine.Event (FileReceiver H) Bytes (Except FileError Bool))
  receiver : FileReceiver H
  sender : FileSender

section Attempts

variable {H : Type} (sha : Sha256 H) (caps : Capabilities) (cap : UInt64)

def attempt (s : FileSender) (alreadyHave : Bytes) (produced delivered : Nat) : Except FileError (Attempt H) :=
  match FileReceiver.acceptOffer sha caps s.offer alreadyHave cap with
  | .error e => .error e
  | .ok (r,accept) =>
    match s.onAccept accept with
    | .error e => .error e
    | .ok s =>
      match s.produce produced with
      | (.error e,_) => .error e
      | (.ok frames,s) => .ok {
          sent := frames
          events := Machine.trace (FileReceiver.onChunk sha) r (frames.take delivered)
          receiver := Machine.final (FileReceiver.onChunk sha) r (frames.take delivered)
          sender := s }

/-- One attempt after the other; each starts from the bytes the one before received. -/
def attempts : FileSender → Bytes → List (Nat × Nat) → Except FileError (List (Attempt H))
  | _, _, [] => .ok []
  | s, alreadyHave, plan :: rest =>
    match attempt sha caps cap s alreadyHave plan.1 plan.2 with
    | .error e => .error e
    | .ok a =>
      match attempts a.sender a.receiver.received rest with
      | .error e => .error e
      | .ok log => .ok (a :: log)

end Attempts

structure SharedFile where
  transferId : UInt64
  name : Bytes
  data : Bytes
  chunkSize : UInt32
  nonzero : chunkSize ≠ 0
  bounded : chunkSize ≤ maxFileChunk
  addressed : data.length ≤ u64Max

namespace SharedFile

variable (f : SharedFile)

def step (p : Nat) : Nat := min (f.data.length - p) f.chunkSize.toNat

def header (p : Nat) : FileChunkHeader :=
  ⟨f.transferId,UInt64.ofNat p,UInt32.ofNat (f.step p),decide (f.data.length ≤ p + f.step p)⟩

def payload (p : Nat) : Bytes := (f.data.drop p).take (f.step p)

def frame (p : Nat) : Bytes := (f.header p).wire ++ f.payload p

def positions : Nat → Nat → List Nat
  | 0, _ => []
  | n + 1, p => if f.data.length ≤ p then [] else p :: positions n (p + f.step p)

def advance : Nat → Nat → Nat
  | 0, p => p
  | n + 1, p => advance n (p + f.step p)

variable {f} {digest : Digest}

theorem positions_succ (n p : Nat) :
    f.positions (n + 1) p = if f.data.length ≤ p then [] else p :: f.positions n (p + f.step p) := rfl

theorem chunkSize_pos : 0 < f.chunkSize.toNat := by
  apply Nat.pos_of_ne_zero
  intro zero
  exact f.nonzero (UInt32.toNat_inj.mp zero)

theorem step_pos {p : Nat} (inside : p < f.data.length) : 0 < f.step p := by
  have := f.chunkSize_pos
  unfold step
  omega

theorem step_le (p : Nat) : f.step p ≤ f.data.length - p := Nat.min_le_left _ _

theorem toNat_step (p : Nat) : (UInt32.ofNat (f.step p)).toNat = f.step p := by
  apply UInt32.toNat_ofNat_of_lt'
  exact Nat.lt_of_le_of_lt (Nat.min_le_right _ _) f.chunkSize.toNat_lt

theorem toNat_position {p : Nat} (inside : p ≤ f.data.length) : (UInt64.ofNat p).toNat = p := by
  apply UInt64.toNat_ofNat_of_lt'
  have := f.addressed
  simp only [u64Max,UInt64.size] at this ⊢
  omega

theorem header_valid {p : Nat} (inside : p < f.data.length) : (f.header p).Valid := by
  have positive := f.step_pos inside
  have same := f.toNat_step p
  constructor
  · intro zero
    have : (UInt32.ofNat (f.step p)).toNat = 0 := congrArg UInt32.toNat zero
    omega
  · apply UInt32.le_iff_toNat_le.mpr
    have largest := UInt32.le_iff_toNat_le.mp f.bounded
    exact (same.trans_le (Nat.min_le_right _ _)).trans largest

theorem length_payload (p : Nat) : (f.payload p).length = f.step p := by
  have := f.step_le p
  rw [payload,List.length_take,List.length_drop]
  omega

theorem take_step {p : Nat} : f.data.take (p + f.step p) = f.data.take p ++ f.payload p := List.take_add

theorem take_frame (p : Nat) : (f.frame p).take fileChunkHeaderLen = (f.header p).wire :=
  List.take_left' (FileChunkHeader.length_wire _)

theorem drop_frame (p : Nat) : (f.frame p).drop fileChunkHeaderLen = f.payload p :=
  List.drop_left' (FileChunkHeader.length_wire _)

theorem advance_le {n p : Nat} (inside : p ≤ f.data.length) : f.advance n p ≤ f.data.length := by
  induction n generalizing p with
  | zero => exact inside
  | succ n ih =>
    have := f.step_le p
    exact ih (by omega)

theorem advance_enough {n p : Nat} (inside : p ≤ f.data.length) (enough : f.data.length ≤ p + n) :
    f.advance n p = f.data.length := by
  induction n generalizing p with
  | zero => exact Nat.le_antisymm inside enough
  | succ n ih =>
    have bounded := f.step_le p
    by_cases more : p < f.data.length
    · have positive := f.step_pos more
      exact ih (by omega) (by omega)
    · exact ih (by omega) (by omega)

theorem length_positions_le (n p : Nat) : (f.positions n p).length ≤ f.data.length - p := by
  induction n generalizing p with
  | zero => exact Nat.zero_le _
  | succ n ih =>
    rw [positions_succ]
    split_ifs with done
    · exact Nat.zero_le _
    · have positive := f.step_pos (Nat.not_le.mp done)
      have tail := ih (p + f.step p)
      rw [List.length_cons]
      omega

theorem positions_take (n d p : Nat) : (f.positions n p).take d = f.positions (min n d) p := by
  induction n generalizing d p with
  | zero => rw [Nat.zero_min]; exact List.take_nil
  | succ n ih =>
    cases d with
    | zero => rfl
    | succ d =>
      rw [Nat.succ_min_succ]
      rw [positions_succ,positions_succ]
      split_ifs with done
      · exact List.take_nil
      · rw [List.take_succ_cons,ih]

theorem mem_positions {n p q : Nat} (member : q ∈ f.positions n p) : p ≤ q ∧ q < f.data.length := by
  induction n generalizing p with
  | zero => cases member
  | succ n ih =>
    rw [positions_succ] at member
    split_ifs at member with done
    · cases member
    · rcases List.mem_cons.mp member with rfl | later
      · exact ⟨le_rfl,Nat.not_le.mp done⟩
      · have := ih later
        omega

/-- No position lies inside an earlier frame. -/
theorem positions_pairwise (n p : Nat) : (f.positions n p).Pairwise (fun a b => a + f.step a ≤ b) := by
  induction n generalizing p with
  | zero => exact List.Pairwise.nil
  | succ n ih =>
    rw [positions_succ]
    split_ifs with done
    · exact List.Pairwise.nil
    · exact List.Pairwise.cons (fun q later => (mem_positions later).1) (ih _)

def sender (f : SharedFile) (digest : Digest) (p : Nat) : FileSender :=
  ⟨f.transferId,f.name,f.data,f.chunkSize,digest,UInt64.ofNat p⟩

theorem nextChunk_sender {p : Nat} (inside : p < f.data.length) :
    (f.sender digest p).nextChunk = (.ok (some (f.frame p)),f.sender digest (p + f.step p)) := by
  have cursor : (f.sender digest p).cursor.toNat = p := toNat_position inside.le
  have taken : (f.sender digest p).take = f.step p := by rw [FileSender.take,cursor]; rfl
  have header : (f.sender digest p).nextHeader = f.header p := by rw [FileSender.nextHeader,cursor,taken]; rfl
  unfold FileSender.nextChunk
  rw [cursor,taken,header]
  refine (if_neg (Nat.not_le.mpr inside)).trans ?_
  rw [FileChunkHeader.encode_eq (header_valid inside)]
  rfl

theorem nextChunk_done {p : Nat} (inside : p ≤ f.data.length) (done : f.data.length ≤ p) :
    (f.sender digest p).nextChunk = (.ok none,f.sender digest p) := by
  unfold FileSender.nextChunk
  exact if_pos (done.trans_eq (toNat_position inside).symm)

theorem produce_sender {n p : Nat} (inside : p ≤ f.data.length) :
    (f.sender digest p).produce n = (.ok ((f.positions n p).map f.frame),f.sender digest (f.advance n p)) := by
  induction n generalizing p with
  | zero => rfl
  | succ n ih =>
    unfold FileSender.produce
    rw [positions_succ]
    by_cases done : f.data.length ≤ p
    · rw [nextChunk_done inside done,if_pos done,advance_enough inside (by omega),Nat.le_antisymm done inside]
      rfl
    · have more := f.step_le p
      rw [nextChunk_sender (Nat.not_le.mp done),if_neg done]
      simp only
      rw [ih (by omega)]
      rfl

/-- The receiver holds the bytes of the file up to a position. -/
structure Receiving {H : Type} (f : SharedFile) (p : Nat) (r : FileReceiver H) : Prop where
  transferId : r.transferId = f.transferId
  totalSize : r.totalSize.toNat = f.data.length
  cap : f.data.length ≤ r.cap.toNat
  received : r.received = f.data.take p

variable {H : Type} {r : FileReceiver H} {p : Nat}

theorem Receiving.fits (receiving : f.Receiving p r) (inside : p < f.data.length) : r.Fits (f.frame p) (f.header p) := by
  have offset : (f.header p).offset.toNat = p := toNat_position inside.le
  have len : (f.header p).len.toNat = f.step p := f.toNat_step p
  have bounded := f.step_le p
  have addressed := f.addressed
  have stop : satAdd u64Max (f.header p).offset.toNat (f.header p).len.toNat = p + f.step p := by
    rw [offset,len]
    exact satAdd_of_le (by omega)
  have total := receiving.totalSize
  have cap := receiving.cap
  constructor
  · simp [frame]
  · rw [take_frame]
    exact FileChunkHeader.decode_wire (header_valid inside)
  · exact receiving.transferId.symm
  · rw [drop_frame,length_payload,len]
  · rw [offset,receiving.received,List.length_take]
    omega
  · rw [stop]
    omega
  · rw [stop]
    omega
  · intro last
    have reached : f.data.length ≤ p + f.step p := of_decide_eq_true last
    rw [stop]
    omega

theorem Receiving.onChunk (sha : Sha256 H) (receiving : f.Receiving p r) (inside : p < f.data.length) :
    ∃ next, r.onChunk sha (f.frame p) = (.ok (decide (next.received = f.data)),next) ∧ f.Receiving (p + f.step p) next := by
  have step := FileReceiver.onChunk_fits sha (receiving.fits inside)
  have bounded := f.step_le p
  have received : r.received ++ f.payload p = f.data.take (p + f.step p) := by
    rw [receiving.received,take_step]
  have flag : (r.totalSize.toNat ≤ r.received.length + (f.payload p).length) ↔ f.data.take (p + f.step p) = f.data := by
    rw [receiving.totalSize,List.take_eq_self_iff,receiving.received,List.length_take,length_payload]
    omega
  rw [drop_frame] at step
  refine ⟨r.taken sha (f.payload p),?_,receiving.transferId,receiving.totalSize,receiving.cap,received⟩
  rw [step]
  simp only [FileReceiver.taken,received,flag]

theorem Receiving.run (sha : Sha256 H) (n : Nat) (receiving : f.Receiving p r) (inside : p ≤ f.data.length) :
    (∀ e ∈ Machine.trace (FileReceiver.onChunk sha) r ((f.positions n p).map f.frame),
        e.response = .ok (decide (e.after.received = f.data))) ∧
      f.Receiving (f.advance n p) (Machine.final (FileReceiver.onChunk sha) r ((f.positions n p).map f.frame)) := by
  induction n generalizing p r with
  | zero => exact ⟨fun e member => absurd member List.not_mem_nil,receiving⟩
  | succ n ih =>
    rw [positions_succ]
    by_cases done : f.data.length ≤ p
    · rw [if_pos done,advance_enough inside (by omega),Nat.le_antisymm done inside]
      exact ⟨fun e member => absurd member List.not_mem_nil,receiving⟩
    · have bounded := f.step_le p
      obtain ⟨next,step,moved⟩ := receiving.onChunk sha (Nat.not_le.mp done)
      rw [if_neg done,List.map_cons]
      obtain ⟨answered,final⟩ := ih moved (by omega)
      refine ⟨?_,?_⟩
      · intro e member
        rcases List.mem_cons.mp member with rfl | later
        · simp only [Machine.fire,step]
        · rw [step] at later
          exact answered e later
      · simp only [Machine.final,step]
        exact final

end SharedFile

def frameHeader (frame : Bytes) : Except ProtocolError FileChunkHeader :=
  FileChunkHeader.decode (frame.take fileChunkHeaderLen)

/-- Every frame of the file was produced and delivered. -/
def Attempt.RanToEnd {H : Type} (a : Attempt H) : Prop := a.sender.isDone = true ∧ a.events.length = a.sent.length

/-- What an attempt guarantees about a file, whatever it produced and delivered. -/
structure Attempt.Clean {H : Type} (sha : Sha256 H) (transferId : UInt64) (data : Bytes) (plan : Nat × Nat) (a : Attempt H) :
    Prop where
  answered : ∀ e ∈ a.events, e.response = .ok (decide (e.after.received = data))
  framed : ∀ frame ∈ a.sent, ∃ header, frameHeader frame = .ok header ∧
    frame.drop fileChunkHeaderLen = (data.drop header.offset.toNat).take header.len.toNat ∧
    (header.last = true ↔ header.offset.toNat + header.len.toNat = data.length)
  once : a.sent.Pairwise (fun earlier later => ∀ first second, frameHeader earlier = .ok first →
    frameHeader later = .ok second → first.offset.toNat + first.len.toNat ≤ second.offset.toNat)
  finished : a.RanToEnd → a.receiver.finish sha = .ok (data,⟨transferId,true⟩)
  enough : data.length ≤ plan.1 → data.length ≤ plan.2 → a.RanToEnd

namespace SharedFile

variable {f : SharedFile} {H : Type} {sha : Sha256 H} {caps : Capabilities} {cap : UInt64}

theorem frameHeader_frame {p : Nat} (inside : p < f.data.length) : frameHeader (f.frame p) = .ok (f.header p) := by
  rw [frameHeader,take_frame]
  exact FileChunkHeader.decode_wire (header_valid inside)

theorem frame_framed {p : Nat} (inside : p < f.data.length) : ∃ header, frameHeader (f.frame p) = .ok header ∧
    (f.frame p).drop fileChunkHeaderLen = (f.data.drop header.offset.toNat).take header.len.toNat ∧
    (header.last = true ↔ header.offset.toNat + header.len.toNat = f.data.length) := by
  have offset : (f.header p).offset.toNat = p := toNat_position inside.le
  have len : (f.header p).len.toNat = f.step p := f.toNat_step p
  have bounded := f.step_le p
  refine ⟨f.header p,frameHeader_frame inside,?_,?_⟩
  · rw [drop_frame,offset,len,payload]
  · rw [offset,len,header,decide_eq_true_eq]
    omega

theorem frames_once (n p : Nat) : ((f.positions n p).map f.frame).Pairwise (fun earlier later => ∀ first second,
    frameHeader earlier = .ok first → frameHeader later = .ok second →
      first.offset.toNat + first.len.toNat ≤ second.offset.toNat) := by
  rw [List.pairwise_map]
  refine List.Pairwise.imp_of_mem ?_ (f.positions_pairwise n p)
  intro a b first second apart header header' here there
  have inside := (mem_positions first).2
  have inside' := (mem_positions second).2
  rw [frameHeader_frame inside] at here
  rw [frameHeader_frame inside'] at there
  obtain rfl := Except.ok.inj here
  obtain rfl := Except.ok.inj there
  have offset : (f.header a).offset.toNat = a := toNat_position inside.le
  have offset' : (f.header b).offset.toNat = b := toNat_position inside'.le
  have len : (f.header a).len.toNat = f.step a := f.toNat_step a
  omega

theorem onAccept_sender {digest : Digest} {p q : Nat} (inside : q ≤ f.data.length) :
    (f.sender digest p).onAccept ⟨f.transferId,UInt64.ofNat q⟩ = .ok (f.sender digest q) := by
  have offset : (UInt64.ofNat q).toNat = q := toNat_position inside
  unfold FileSender.onAccept
  exact (if_neg (not_not.mpr rfl)).trans (if_neg (Nat.not_lt.mpr (offset.trans_le inside)))

def receiver (f : SharedFile) (sha : Sha256 H) (cap : UInt64) (q : Nat) : FileReceiver H :=
  ⟨f.transferId,UInt64.ofNat f.data.length,sha.digest f.data,sha.update sha.new (f.data.take q),f.data.take q,cap⟩

theorem receiving_receiver (sha : Sha256 H) (q : Nat) (room : f.data.length ≤ cap.toNat) :
    f.Receiving q (f.receiver sha cap q) :=
  ⟨rfl,toNat_position le_rfl,room,rfl⟩

theorem acceptOffer_sender {name : Text} {p q : Nat} (named : sanitizeName f.name = .ok name)
    (granted : caps.contains .file = true) (room : f.data.length ≤ cap.toNat) (inside : q ≤ f.data.length) :
    FileReceiver.acceptOffer sha caps (f.sender (sha.digest f.data) p).offer (f.data.take q) cap =
      .ok (f.receiver sha cap q,⟨f.transferId,UInt64.ofNat q⟩) := by
  have length : (f.data.take q).length = q := by
    rw [List.length_take]
    omega
  have size : (UInt64.ofNat f.data.length).toNat = f.data.length := toNat_position le_rfl
  have small : ¬cap < UInt64.ofNat f.data.length := by
    rw [UInt64.not_lt,UInt64.le_iff_toNat_le,size]
    exact room
  have prefixed : ¬(f.sender (sha.digest f.data) p).offer.totalSize.toNat < (f.data.take q).length := by
    rw [length]
    exact Nat.not_lt.mpr (inside.trans_eq size.symm)
  unfold FileReceiver.acceptOffer
  rw [granted,if_neg (by decide)]
  simp only [FileSender.offer,sender,named]
  refine (if_neg small).trans ((if_neg prefixed).trans ?_)
  rw [length]
  rfl

def attempted (f : SharedFile) (sha : Sha256 H) (cap : UInt64) (q : Nat) (plan : Nat × Nat) : Attempt H where
  sent := (f.positions plan.1 q).map f.frame
  events := Machine.trace (FileReceiver.onChunk sha) (f.receiver sha cap q) ((f.positions (min plan.1 plan.2) q).map f.frame)
  receiver := Machine.final (FileReceiver.onChunk sha) (f.receiver sha cap q) ((f.positions (min plan.1 plan.2) q).map f.frame)
  sender := f.sender (sha.digest f.data) (f.advance plan.1 q)

variable {name : Text} {p q : Nat}

theorem attempt_eq (named : sanitizeName f.name = .ok name) (granted : caps.contains .file = true)
    (room : f.data.length ≤ cap.toNat) (inside : q ≤ f.data.length) (plan : Nat × Nat) :
    attempt sha caps cap (f.sender (sha.digest f.data) p) (f.data.take q) plan.1 plan.2 = .ok (f.attempted sha cap q plan) := by
  have delivered : ((f.positions plan.1 q).map f.frame).take plan.2 = (f.positions (min plan.1 plan.2) q).map f.frame := by
    rw [← List.map_take,positions_take]
  unfold attempt
  rw [acceptOffer_sender named granted room inside]
  simp only
  rw [onAccept_sender inside]
  simp only
  rw [produce_sender inside]
  simp only [delivered]
  rfl

theorem received_attempted (room : f.data.length ≤ cap.toNat) (inside : q ≤ f.data.length) (plan : Nat × Nat) :
    (f.attempted sha cap q plan).receiver.received = f.data.take (f.advance (min plan.1 plan.2) q) :=
  ((receiving_receiver sha q room).run sha _ inside).2.received

theorem finish_attempted (named : sanitizeName f.name = .ok name) (granted : caps.contains .file = true)
    (room : f.data.length ≤ cap.toNat) (inside : q ≤ f.data.length) (plan : Nat × Nat)
    (whole : (f.attempted sha cap q plan).receiver.received = f.data) :
    (f.attempted sha cap q plan).receiver.finish sha = .ok (f.data,⟨f.transferId,true⟩) := by
  have accepted : FileReceiver.acceptOffer sha caps _ _ _ = _ := acceptOffer_sender (p := q) named granted room inside
  obtain ⟨start,-,-⟩ := FileReceiver.acceptOffer_ok accepted
  have holds := start.run ((f.positions (min plan.1 plan.2) q).map f.frame)
  have size : (UInt64.ofNat f.data.length).toNat = f.data.length := toNat_position le_rfl
  refine (holds.finish_iff _ _).mpr ⟨whole.symm,rfl,?_,?_⟩
  · exact (congrArg List.length whole).trans size.symm
  · exact congrArg sha.digest whole

theorem ranToEnd_attempted {plan : Nat × Nat} (room : f.data.length ≤ cap.toNat) (inside : q ≤ f.data.length)
    (ran : (f.attempted sha cap q plan).RanToEnd) : (f.attempted sha cap q plan).receiver.received = f.data := by
  obtain ⟨done,delivered⟩ := ran
  have reached : f.data.length ≤ f.advance plan.1 q := by
    have cursor : (UInt64.ofNat (f.advance plan.1 q)).toNat = f.advance plan.1 q := toNat_position (advance_le inside)
    exact (of_decide_eq_true done).trans_eq cursor
  have all : f.positions (min plan.1 plan.2) q = f.positions plan.1 q := by
    rw [← positions_take]
    apply List.take_of_length_le
    have lengths : ((f.positions plan.1 q).take plan.2).length = (f.positions plan.1 q).length := by
      rw [positions_take]
      simpa [attempted] using delivered
    rw [List.length_take] at lengths
    omega
  have run := ((receiving_receiver sha q room).run sha plan.1 inside).2.received
  unfold attempted
  rw [all]
  exact run.trans (List.take_of_length_le reached)

theorem clean_attempted (named : sanitizeName f.name = .ok name) (granted : caps.contains .file = true)
    (room : f.data.length ≤ cap.toNat) (inside : q ≤ f.data.length) (plan : Nat × Nat) :
    (f.attempted sha cap q plan).Clean sha f.transferId f.data plan where
  answered := ((receiving_receiver sha q room).run sha _ inside).1
  framed frame sent := by
    obtain ⟨p,member,rfl⟩ := List.mem_map.mp sent
    exact frame_framed (mem_positions member).2
  once := f.frames_once plan.1 q
  finished ran := finish_attempted named granted room inside plan (ranToEnd_attempted room inside ran)
  enough produced delivered := by
    constructor
    · have reached := advance_enough inside (n := plan.1) (by omega)
      have cursor : (UInt64.ofNat (f.advance plan.1 q)).toNat = f.advance plan.1 q := toNat_position (advance_le inside)
      exact decide_eq_true (reached.symm.trans_le cursor.symm.le)
    · have few := f.length_positions_le plan.1 q
      simp only [attempted,Machine.length_trace,List.length_map]
      rw [← positions_take,List.take_of_length_le (by omega)]

theorem attempts_clean (named : sanitizeName f.name = .ok name) (granted : caps.contains .file = true)
    (room : f.data.length ≤ cap.toNat) (inside : q ≤ f.data.length) (plans : List (Nat × Nat)) :
    ∃ log, attempts sha caps cap (f.sender (sha.digest f.data) p) (f.data.take q) plans = .ok log ∧
      List.Forall₂ (fun plan a => a.Clean sha f.transferId f.data plan) plans log := by
  induction plans generalizing p q with
  | nil => exact ⟨[],rfl,List.Forall₂.nil⟩
  | cons plan rest ih =>
    obtain ⟨log,ran,clean⟩ := ih (p := f.advance plan.1 q) (q := f.advance (min plan.1 plan.2) q) (advance_le inside)
    refine ⟨f.attempted sha cap q plan :: log,?_,List.Forall₂.cons (clean_attempted named granted room inside plan) clean⟩
    unfold attempts
    rw [attempt_eq named granted room inside]
    simp only
    rw [received_attempted room inside]
    have later : attempts sha caps cap (f.attempted sha cap q plan).sender
        (f.data.take (f.advance (min plan.1 plan.2) q)) rest =
        .ok log := ran
    rw [later]

end SharedFile

/-- Over any number of interrupted attempts: nothing errs, each chunk is answered by whether the
file is complete, and an attempt that runs to the end finishes with the file. -/
theorem FileSender.transfer_completes {H : Type} (sha : Sha256 H) {caps : Capabilities} {cap : UInt64} {transferId : UInt64}
    {nameBytes data : Bytes} {name : Text} {chunkSize : UInt32} (named : sanitizeName nameBytes = .ok name)
    (positive : 1 ≤ chunkSize) (bounded : chunkSize ≤ maxFileChunk) (room : data.length ≤ cap.toNat)
    (granted : caps.contains .file = true) :
    ∃ s, FileSender.new sha transferId nameBytes data chunkSize = .ok s ∧
      ∀ plans, ∃ log, attempts sha caps cap s [] plans = .ok log ∧
        List.Forall₂ (fun plan a => a.Clean sha transferId data plan) plans log := by
  have nonzero : chunkSize ≠ 0 := by
    rintro rfl
    exact absurd positive (by decide)
  have addressed : data.length ≤ u64Max := by
    have := cap.toNat_lt
    unfold u64Max
    omega
  let f : SharedFile := ⟨transferId,nameBytes,data,chunkSize,nonzero,bounded,addressed⟩
  have hash : sha.finalize (sha.update sha.new data) = sha.digest data := by
    have whole := sha.incremental [data]
    rw [List.flatten_singleton] at whole
    exact whole
  refine ⟨f.sender (sha.digest data) 0,?_,fun plans => ?_⟩
  · unfold FileSender.new
    rw [named,hash]
    apply if_neg
    rintro (zero | large)
    · exact nonzero zero
    · exact UInt32.not_lt.mpr bounded large
  · exact SharedFile.attempts_clean (f := f) (q := 0) named granted room (Nat.zero_le _) plans

open Transparent (fileHash)

/-- Three bytes in chunks of two: an attempt that delivers one chunk, one that delivers nothing, and one that runs to
the end. -/
theorem FileSender.interrupted_transfer_completes :
    sanitizeName [102] = .ok ['f'] ∧ ∃ s log, FileSender.new fileHash 1 [102] [7,8,9] 2 = .ok s ∧
      attempts fileHash .file 3 s [] [(2,1),(1,0),(3,3)] = .ok log ∧
      List.Forall₂ (fun plan a => a.Clean fileHash 1 [7,8,9] plan) [(2,1),(1,0),(3,3)] log := by
  have named : sanitizeName [102] = .ok ['f'] := by decide +kernel
  have room : ([7,8,9] : Bytes).length ≤ (3 : UInt64).toNat := by decide
  obtain ⟨s,created,completes⟩ :=
    @transfer_completes _ fileHash .file 3 1 _ _ _ 2 named (by decide) (by decide) room (by decide)
  obtain ⟨log,ran,clean⟩ := completes [(2,1),(1,0),(3,3)]
  exact ⟨named,s,log,created,ran,clean⟩

end Streamhaul
