import Streamhaul.ChannelNonce
import Streamhaul.ChannelReplay

/-! Two ends of one handshake and the medium between them. Sent frames are kept forever,
so loss, reordering and duplication are the freedom of when, how often and whether one
is delivered. The sender's schedule and the receiver's window meet in one fact: a frame
that the replay window admits lies at most one interval behind the newest accepted one,
so its generation key is still live. -/
namespace Streamhaul

open RatchetChain
open ChannelFrameHeader (Precedes)

structure Sent where
  plaintext : Bytes
  frame : Bytes
  deriving DecidableEq

def Sent.header? (s : Sent) : Option ChannelFrameHeader :=
  (ChannelFrameHeader.parse (s.frame.take channelHeaderLen)).toOption

def sentBy (e : CallEvent) : Option Sent :=
  match e.call,e.response with
  | .sealFrame _ plaintext,.sealed (.ok frame) => some ⟨plaintext,frame⟩
  | _,_ => none

/-- Nothing leaves `sent`. `accepted` records what the receiver has opened. -/
structure Link where
  sender : SessionKeys
  receiver : SessionKeys
  sent : List Sent
  accepted : List ChannelFrameHeader

inductive LinkCall where
  | atSender (call : Call)
  | atReceiver (call : Call)
  | deliver (now : Int) (channel : ChannelId) (index : Nat)

namespace Link

def receive (h : Hkdf) (aead : Aead) (l : Link) (call : Call) : Response × Link :=
  let e := Machine.fire (SessionKeys.step h aead) l.receiver call
  (e.response,{ l with receiver := e.after, accepted := l.accepted ++ (openedHeader e).toList })

def step (h : Hkdf) (aead : Aead) (l : Link) : LinkCall → Response × Link
  | .atSender call =>
    let e := Machine.fire (SessionKeys.step h aead) l.sender call
    (e.response,{ l with sender := e.after, sent := l.sent ++ (sentBy e).toList })
  | .atReceiver call => l.receive h aead call
  | .deliver now channel index =>
    match l.sent[index]? with
    | none => (.done,l)
    | some s => l.receive h aead (.openFrame now channel s.frame)

/-- The ends are not killed, and the receiver opens only what the medium delivers. -/
def Allowed : LinkCall → Prop
  | .atSender call => call ≠ .zeroizeAll
  | .atReceiver call => call ≠ .zeroizeAll ∧ ∀ now channel frame, call ≠ .openFrame now channel frame
  | .deliver _ _ _ => True

/-- The headers in flight below the last epoch number. At that number a sender that
rekeys starts over, so its headers order nothing. -/
def headers (l : Link) : List ChannelFrameHeader :=
  (l.sent.filterMap Sent.header?).filter (fun x => x.epoch < u64Max)

end Link

def seenAt (headers : List ChannelFrameHeader) (c : ChannelId) (epoch : Nat) : Set ChannelFrameHeader :=
  {x | x ∈ headers ∧ x.channel = c ∧ x.epoch = epoch}

theorem seenAt_mono {headers more : List ChannelFrameHeader} (subset : headers ⊆ more) (c : ChannelId)
    (epoch : Nat) : seenAt headers c epoch ⊆ seenAt more c epoch :=
  fun _ member => ⟨subset member.1,member.2⟩

/-- How a receiving chain got to its newest generation `m`: an accepted frame carries it,
and the chain stood at most the ahead limit below it before. -/
structure Climb (seen : Set ChannelFrameHeader) (m : Nat) : Prop where
  top : m = 0 ∨ ∃ x ∈ seen, x.generation = m
  gap : m ≤ genAheadLimit ∨ ∃ x ∈ seen, x.generation < m ∧ m ≤ x.generation + genAheadLimit

theorem climb_zero (seen : Set ChannelFrameHeader) : Climb seen 0 := ⟨.inl rfl,.inl (Nat.zero_le _)⟩

theorem Climb.mono {seen more : Set ChannelFrameHeader} {m : Nat} (climb : Climb seen m)
    (subset : seen ⊆ more) : Climb more m :=
  ⟨climb.top.imp_right (fun ⟨x,member,equal⟩ => ⟨x,subset member,equal⟩),
    climb.gap.imp_right (fun ⟨x,member,near⟩ => ⟨x,subset member,near⟩)⟩

theorem Climb.accept {seen : Set ChannelFrameHeader} {m : Nat} (climb : Climb seen m)
    {x : ChannelFrameHeader} (member : x ∈ seen) (inside : InWindow m x.generation) :
    Climb seen (max m x.generation) := by
  by_cases older : x.generation ≤ m
  · rw [max_eq_left older]
    exact climb
  · have ahead : x.generation ≤ m + genAheadLimit := inside.2.trans (Nat.min_le_left _ _)
    rw [max_eq_right (by omega)]
    refine ⟨.inr ⟨x,member,rfl⟩,?_⟩
    rcases climb.top with zero | ⟨y,seenY,top⟩
    · apply Or.inl
      omega
    · exact .inr ⟨y,seenY,by omega,by omega⟩

variable {direction : Direction} {header : ChannelFrameHeader} {headers : List ChannelFrameHeader} {aead : Aead}
  {ciphertext : Bytes} {h : Hkdf} {prk : Key} {s : Sent}

theorem precedes_total
    (ordered : headers.Pairwise (fun a b => a.channel = b.channel → a.epoch = b.epoch → Precedes a b))
    {a b : ChannelFrameHeader} (left : a ∈ headers) (right : b ∈ headers)
    (channel : a.channel = b.channel) (epoch : a.epoch = b.epoch) :
    a = b ∨ Precedes a b ∨ Precedes b a := by
  let Comparable (a b : ChannelFrameHeader) : Prop :=
    a.channel = b.channel → a.epoch = b.epoch → a = b ∨ Precedes a b ∨ Precedes b a
  have forward : headers.Pairwise Comparable :=
    ordered.imp (fun precedes channel epoch => .inr (.inl (precedes channel epoch)))
  have backward : headers.Pairwise (flip Comparable) :=
    ordered.imp (fun precedes channel epoch => .inr (.inr (precedes channel.symm epoch.symm)))
  have reflexive : ∀ x ∈ headers, Comparable x x := fun x _ _ _ => .inl rfl
  exact forward.forall_of_forall_of_flip reflexive backward left right channel epoch

theorem block_lt_of_generation_lt
    (ordered : headers.Pairwise (fun a b => a.channel = b.channel → a.epoch = b.epoch → Precedes a b))
    {a b : ChannelFrameHeader} (left : a ∈ headers) (right : b ∈ headers)
    (channel : a.channel = b.channel) (epoch : a.epoch = b.epoch)
    (earlier : a.generation < b.generation) : a.block < b.block := by
  rcases precedes_total ordered left right channel epoch with rfl | before | after
  · exact absurd earlier (lt_irrefl _)
  · have blocks : a.block ≤ b.block := Nat.div_le_div_right before.seq.le
    have := before.same
    omega
  · have blocks : b.block ≤ a.block := Nat.div_le_div_right after.seq.le
    have := after.same
    have := after.later
    omega

/-- The floor never rejects what the window admits. Were the newest generation more than
two above a sent frame's, two block boundaries would lie between that frame and an
accepted one, farther apart than the window is wide. -/
theorem climb_le (ordered : headers.Pairwise (fun a b => a.channel = b.channel → a.epoch = b.epoch → Precedes a b))
    {x : ChannelFrameHeader} (sent : x ∈ headers) {accepted : List ChannelFrameHeader}
    (known : ∀ y ∈ accepted, y.epoch = x.epoch → y ∈ headers) {m : Nat}
    (climb : Climb (seenAt accepted x.channel x.epoch) m)
    (near : ∀ s ∈ acceptedSeqs accepted x.channel x.epoch, s < x.seq + replayWindow) :
    m ≤ x.generation + genWindow := by
  by_contra high
  simp only [genWindow,not_le] at high
  rcases climb.top with zero | ⟨y,⟨acceptedY,channelY,epochY⟩,top⟩
  · omega
  rcases climb.gap with low | ⟨z,⟨acceptedZ,channelZ,epochZ⟩,below,gap⟩
  · simp only [genAheadLimit] at low
    omega
  simp only [genAheadLimit] at gap
  have sentY := known y acceptedY epochY
  have sentZ := known z acceptedZ epochZ
  have first : x.block < z.block :=
    block_lt_of_generation_lt ordered sent sentZ channelZ.symm epochZ.symm (by omega)
  have second : z.block < y.block := block_lt_of_generation_lt ordered sentZ sentY
    (channelZ.trans channelY.symm) (epochZ.trans epochY.symm) (by omega)
  have window : y.seq < x.seq + replayWindow := by
    refine near y.seq (List.mem_map.mpr ⟨y,acceptedY,?_⟩)
    simp only [ChannelFrameHeader.place,channelY,epochY]
  simp only [ChannelFrameHeader.block,ratchetInterval,replayWindow] at *
  omega

namespace EpochKeys

/-- Every receiving chain of the epoch climbed along accepted frames. -/
def Climbs (headers : List ChannelFrameHeader) (send : Direction) (e : EpochKeys) : Prop :=
  e.Slots (fun c d st => d ≠ send → Climb (seenAt headers c e.epoch) st.ratchet.maxGen)

theorem freshEpoch_climbs (h : Hkdf) (prk : Key) (headers : List ChannelFrameHeader) (send : Direction)
    (epoch : Nat) (now : Int) : Climbs headers send (freshEpoch h prk epoch now) :=
  slots_freshEpoch h prk epoch now (fun _ _ _ => climb_zero _)

theorem Climbs.mono {headers more : List ChannelFrameHeader} {send : Direction} {e : EpochKeys}
    (climbs : Climbs headers send e) (subset : headers ⊆ more) : Climbs more send e :=
  climbs.imp (fun c _ _ _ climb receiving => (climb receiving).mono (seenAt_mono subset c e.epoch))

theorem Climbs.send {headers : List ChannelFrameHeader} {send : Direction} {e : EpochKeys}
    (climbs : Climbs headers send e) (c : ChannelId) (st : ChannelState) :
    Climbs headers send (e.set c send st) :=
  Slots.set climbs (fun receiving => absurd rfl receiving)

theorem Climbs.accept {h : Hkdf} {base : Key} {headers : List ChannelFrameHeader} {send : Direction}
    {e : EpochKeys} (climbs : Climbs headers send e) {x : ChannelFrameHeader} {st : ChannelState}
    (found : e.get? x.channel x.direction = some st) (epoch : x.epoch = e.epoch)
    (inside : InWindow st.ratchet.maxGen x.generation) :
    Climbs (headers ++ [x]) send (e.set x.channel x.direction (st.accepted h base x)) := by
  have more := climbs.mono (List.subset_append_left headers [x])
  apply Slots.set more
  intro receiving
  have member : x ∈ seenAt (headers ++ [x]) x.channel e.epoch := ⟨by simp,rfl,epoch⟩
  exact (more.at found receiving).accept member inside

/-- Below the last epoch number the receiving windows and chains of an epoch follow the
accepted frames. At that number every accepted frame starts the epoch again. -/
structure Tracks (accepted : List ChannelFrameHeader) (send : Direction) (e : EpochKeys) : Prop where
  windows : e.epoch < u64Max → e.Windows accepted send
  climbs : e.epoch < u64Max → e.Climbs accepted send

theorem freshEpoch_tracks (h : Hkdf) (prk : Key) (accepted : List ChannelFrameHeader) (send : Direction)
    (epoch : Nat) (now : Int) (past : epoch < u64Max → ∀ x ∈ accepted, x.epoch < epoch) :
    Tracks accepted send (freshEpoch h prk epoch now) :=
  ⟨fun low => freshEpoch_windows h prk accepted send epoch now (past low),
    fun _ => freshEpoch_climbs h prk accepted send epoch now⟩

section Tracks

variable {accepted : List ChannelFrameHeader} {own : Direction} {e : EpochKeys}

theorem Tracks.send (tracks : Tracks accepted own e) (c : ChannelId) (st : ChannelState) :
    Tracks accepted own (e.set c own st) :=
  ⟨fun low => (tracks.windows low).send c st,fun low => (tracks.climbs low).send c st⟩

theorem Tracks.elsewhere (tracks : Tracks accepted own e) {x : ChannelFrameHeader}
    (apart : e.epoch < u64Max → x.epoch ≠ e.epoch) : Tracks (accepted ++ [x]) own e :=
  ⟨fun low => (tracks.windows low).elsewhere (apart low),
    fun low => (tracks.climbs low).mono (List.subset_append_left _ _)⟩

theorem Tracks.accept {h : Hkdf} {base : Key} (tracks : Tracks accepted own e) {x : ChannelFrameHeader}
    {st : ChannelState} (found : e.get? x.channel x.direction = some st) (receiving : x.direction ≠ own)
    (epoch : e.epoch < u64Max → x.epoch = e.epoch) (inside : InWindow st.ratchet.maxGen x.generation) :
    Tracks (accepted ++ [x]) own (e.set x.channel x.direction (st.accepted h base x)) :=
  ⟨fun low => (tracks.windows low).accept found receiving (epoch low),
    fun low => (tracks.climbs low).accept found (epoch low) inside⟩

end Tracks

/-- The receiving chains stand where one frame behind a fresh key can have taken them. -/
def Low (send : Direction) (e : EpochKeys) : Prop :=
  e.Slots (fun _ d st => d ≠ send → st.ratchet.maxGen ≤ genAheadLimit)

theorem freshEpoch_low (h : Hkdf) (prk : Key) (send : Direction) (epoch : Nat) (now : Int) :
    Low send (freshEpoch h prk epoch now) :=
  slots_freshEpoch h prk epoch now (fun _ _ _ => Nat.zero_le _)

end EpochKeys

namespace SessionKeys

/-- A receiver that has only opened frames with these headers. -/
structure Receiving (h : Hkdf) (headers accepted : List ChannelFrameHeader) (k : SessionKeys) : Prop where
  live : k.Live h
  known : ∀ x ∈ accepted, x.epoch < u64Max → x ∈ headers
  past : ∀ x ∈ accepted, x.epoch ≤ k.current.epoch
  current : k.current.Tracks accepted k.sendDirection
  prior : ∀ p, k.prior = some p →
    k.current.epoch = satAdd u64Max p.epoch 1 ∧ p.Tracks accepted k.sendDirection
  last : k.current.epoch = u64Max → k.current.Low k.sendDirection

section Receiving

variable {h : Hkdf} {headers accepted : List ChannelFrameHeader} {k : SessionKeys}

theorem Receiving.more {more : List ChannelFrameHeader} (receiving : Receiving h headers accepted k)
    (subset : headers ⊆ more) : Receiving h more accepted k :=
  { receiving with known := fun x member low => subset (receiving.known x member low) }

theorem Receiving.behind (receiving : Receiving h headers accepted k) {p : EpochKeys}
    (retained : k.prior = some p) (low : p.epoch < u64Max) : p.epoch + 1 = k.current.epoch := by
  rw [(receiving.prior p retained).1,satAdd_of_le low]

theorem Receiving.openFrame (receiving : Receiving h headers accepted k) (bounded : k.current.epoch ≤ u64Max)
    (aead : Aead) (now : Int) (channel : ChannelId) (frame : Bytes)
    (genuine : ∀ x, ChannelFrameHeader.parse (frame.take channelHeaderLen) = .ok x →
      x.epoch < u64Max → x ∈ headers) :
    Receiving h headers (accepted ++ (openedHeader
      (Machine.fire (step h aead) k (.openFrame now channel frame))).toList)
      (k.step h aead (.openFrame now channel frame)).2 := by
  have keeps := openFrame_live h aead k receiving.live now channel frame
  have live := receiving.live
  have outcome := openFrame_outcome h aead k live.intact now channel frame
  simp only [Machine.fire,step] at keeps ⊢
  generalize k.openFrame h aead now channel frame = result at outcome keeps ⊢
  cases outcome with
  | refused e => simpa [openedHeader] using receiving
  | current header st st' plaintext addressed epoch room found opened =>
    obtain ⟨opens,rfl⟩ := ChannelState.opened_inv (live.current.at found) opened
    simp only [openedHeader_addressed addressed,Option.toList_some]
    refine ⟨keeps,?_,?_,?_,fun p retained => ?_,fun last => absurd last room.ne⟩
    · exact Machine.forall_mem_concat receiving.known (genuine header addressed.parsed)
    · exact Machine.forall_mem_concat receiving.past epoch.le
    · exact receiving.current.accept found addressed.direction (fun _ => epoch) opens.inside
    · refine ⟨(receiving.prior p retained).1,(receiving.prior p retained).2.elsewhere (fun low => ?_)⟩
      have := receiving.behind retained low
      omega
  | prior header p st st' plaintext addressed epoch retained found opened =>
    obtain ⟨opens,rfl⟩ := ChannelState.opened_inv ((live.prior p retained).at found) opened
    obtain ⟨behind,tracks⟩ := receiving.prior p retained
    simp only [openedHeader_addressed addressed,Option.toList_some]
    refine ⟨keeps,?_,?_,?_,fun q kept => ?_,receiving.last⟩
    · exact Machine.forall_mem_concat receiving.known (genuine header addressed.parsed)
    · exact Machine.forall_mem_concat receiving.past (Nat.le_of_succ_le epoch.le)
    · exact receiving.current.elsewhere (fun _ => by omega)
    · cases kept
      refine ⟨behind,tracks.accept found addressed.direction (fun low => ?_) opens.inside⟩
      have := receiving.behind retained low
      omega
  | next header st' plaintext addressed epoch opened =>
    have anchored := EpochKeys.freshEpoch_anchored h k.session.prk header.epoch now
    have found := EpochKeys.get?_freshEpoch h k.session.prk header.epoch now header.channel header.direction
    obtain ⟨opens,rfl⟩ := ChannelState.opened_inv (anchored.at found) opened
    have advance (low : k.current.epoch < u64Max) : header.epoch = k.current.epoch + 1 :=
      epoch.trans (satAdd_of_le low)
    have grown : k.current.epoch ≤ header.epoch := by
      rw [epoch]
      exact le_min (Nat.le_succ _) bounded
    have fresh := EpochKeys.freshEpoch_tracks h k.session.prk accepted k.sendDirection header.epoch now
      (fun low x member => by
        have := receiving.past x member
        have := advance (by omega)
        omega)
    simp only [openedHeader_addressed addressed,Option.toList_some]
    refine ⟨keeps,?_,?_,?_,fun q kept => ?_,fun _ => ?_⟩
    · exact Machine.forall_mem_concat receiving.known (genuine header addressed.parsed)
    · exact Machine.forall_mem_concat (fun x member => (receiving.past x member).trans grown) le_rfl
    · exact fresh.accept found addressed.direction (fun _ => rfl) opens.inside
    · cases kept
      refine ⟨epoch,receiving.current.elsewhere (fun low => ?_)⟩
      have := advance low
      omega
    · refine EpochKeys.Slots.set (EpochKeys.freshEpoch_low h _ _ _ now) (fun _ => ?_)
      exact (Nat.zero_max _).le.trans ((inWindow_zero_iff _).mp opens.inside)

theorem Receiving.other (receiving : Receiving h headers accepted k) (bounded : k.current.epoch ≤ u64Max)
    (aead : Aead) (call : Call) (spared : call ≠ .zeroizeAll)
    (closed : ∀ now channel frame, call ≠ .openFrame now channel frame) :
    Receiving h headers (accepted ++ (openedHeader (Machine.fire (step h aead) k call)).toList)
      (k.step h aead call).2 := by
  have keeps := step_live h aead k receiving.live call spared
  cases call with
  | sealFrame channel plaintext =>
    have outcome := sealFrame_outcome h aead k receiving.live channel plaintext
    simp only [Machine.fire,step,openedHeader,Option.toList_none,List.append_nil] at keeps ⊢
    generalize k.sealFrame h aead channel plaintext = result at outcome keeps ⊢
    cases outcome with
    | exhausted => exact receiving
    | refused | emitted =>
      exact ⟨keeps,receiving.known,receiving.past,receiving.current.send channel _,receiving.prior,
        fun last => EpochKeys.Slots.set (receiving.last last) (fun other => absurd rfl other)⟩
  | openFrame now channel frame => exact absurd rfl (closed now channel frame)
  | rekey now =>
    simp only [Machine.fire,step,openedHeader,Option.toList_none,List.append_nil,rekey_eq] at keeps ⊢
    have grown : k.current.epoch ≤ satAdd u64Max k.current.epoch 1 := le_min (Nat.le_succ _) bounded
    refine ⟨keeps,receiving.known,fun x member => (receiving.past x member).trans grown,?_,fun q kept => ?_,
      fun _ => EpochKeys.freshEpoch_low h _ _ _ now⟩
    · refine EpochKeys.freshEpoch_tracks h _ accepted _ _ now (fun low x member => ?_)
      have := receiving.past x member
      simp only [satAdd] at low ⊢
      omega
    · cases kept
      exact ⟨rfl,receiving.current⟩
  | closeGracePeriod =>
    simp only [Machine.fire,step,openedHeader,Option.toList_none,List.append_nil] at keeps ⊢
    exact ⟨keeps,receiving.known,receiving.past,receiving.current,
      fun q kept => by simp [closeGracePeriod] at kept,receiving.last⟩
  | zeroizeAll => exact absurd rfl spared

end Receiving

end SessionKeys

structure Sealed (h : Hkdf) (aead : Aead) (prk : Key) (direction : Direction) (s : Sent)
    (header : ChannelFrameHeader) (ciphertext : Bytes) : Prop where
  fits : header.Fits
  direction : header.direction = direction
  frame : s.frame = header.encode ++ ciphertext
  encrypted : aead.encrypt (chainKey h (EpochKeys.baseKey h prk header.channel header.direction header.epoch)
    header.generation) (buildNonce header.generation header.seq) header.aad s.plaintext = some ciphertext

theorem Sealed.parsed (record : Sealed h aead prk direction s header ciphertext) :
    ChannelFrameHeader.parse (s.frame.take channelHeaderLen) = .ok header := by
  rw [record.frame,List.take_left' (ChannelFrameHeader.length_encode header)]
  exact ChannelFrameHeader.parse_encode header record.fits

theorem Sealed.addressed (correct : aead.Correct)
    (record : Sealed h aead prk direction s header ciphertext) (k : SessionKeys)
    (receiving : direction ≠ k.sendDirection) :
    SessionKeys.Addressed k header.channel s.frame header := by
  have overhead := correct.overhead _ _ _ _ _ record.encrypted
  refine ⟨?_,record.parsed,rfl,by rw [record.direction]; exact receiving⟩
  rw [record.frame,List.length_append,ChannelFrameHeader.length_encode]
  omega

/-- At an anchored slot, the window and the ahead limit are all that a sent frame has to pass. -/
theorem Sealed.opens (correct : aead.Correct)
    (record : Sealed h aead prk direction s header ciphertext) (st : ChannelState)
    (fresh : st.replay.check header.seq = .ok ())
    (floor : st.ratchet.maxGen ≤ header.generation + genWindow)
    (ahead : header.generation ≤ st.ratchet.maxGen + genAheadLimit) :
    st.Opens h aead (EpochKeys.baseKey h prk header.channel header.direction header.epoch) header
      s.frame s.plaintext := by
  refine ⟨fresh,⟨by omega,le_min ahead record.fits.generation⟩,?_,?_⟩
  · rw [record.frame,List.length_append,ChannelFrameHeader.length_encode]
    omega
  · rw [record.frame,List.drop_left' (ChannelFrameHeader.length_encode header)]
    exact correct.opens _ _ _ _ _ record.encrypted

namespace Link

/-- Both ends share the root and have opposite roles. -/
structure Invariant (h : Hkdf) (aead : Aead) (l : Link) : Prop where
  sender : l.sender.SealHistory h l.headers
  senderEpoch : l.sender.current.epoch ≤ u64Max
  records : ∀ s ∈ l.sent, ∃ header ciphertext,
    Sealed h aead l.sender.session.prk l.sender.sendDirection s header ciphertext
  root : l.receiver.session = l.sender.session
  roles : l.receiver.role ≠ l.sender.role
  receiverEpoch : l.receiver.current.epoch ≤ u64Max
  receiver : l.receiver.Receiving h l.headers l.accepted

theorem sentBy_header (h : Hkdf) (aead : Aead) (k : SessionKeys) (call : Call) :
    (sentBy (Machine.fire (SessionKeys.step h aead) k call)).toList.filterMap Sent.header? =
      (sealedHeader (Machine.fire (SessionKeys.step h aead) k call)).toList := by
  cases call with
  | sealFrame channel plaintext =>
    simp only [Machine.fire,SessionKeys.step]
    generalize k.sealFrame h aead channel plaintext = result
    rcases result with ⟨(e | frame),after⟩
    · rfl
    · cases parsed : ChannelFrameHeader.parse (frame.take channelHeaderLen) <;>
        simp [sentBy,sealedHeader,Sent.header?,parsed,Except.toOption]
  | openFrame | rekey | closeGracePeriod | zeroizeAll => rfl

theorem headers_sent (h : Hkdf) (aead : Aead) (l : Link) (call : Call) :
    (l.step h aead (.atSender call)).2.headers = l.headers ++
      (sealedHeader (Machine.fire (SessionKeys.step h aead) l.sender call)).toList.filter
        (fun x => x.epoch < u64Max) := by
  simp only [step,headers,List.filterMap_append,List.filter_append,sentBy_header]

theorem headers_low (l : Link) : ∀ x ∈ l.headers, x.epoch < u64Max := by
  intro x member
  exact of_decide_eq_true (List.mem_filter.mp member).2

theorem mem_headers {l : Link} {s : Sent} (sent : s ∈ l.sent) (x : ChannelFrameHeader)
    (parsed : ChannelFrameHeader.parse (s.frame.take channelHeaderLen) = .ok x)
    (low : x.epoch < u64Max) : x ∈ l.headers := by
  refine List.mem_filter.mpr ⟨List.mem_filterMap.mpr ⟨s,sent,?_⟩,decide_eq_true low⟩
  simp only [Sent.header?,parsed]
  rfl

theorem sentBy_sealed {h : Hkdf} {aead : Aead} {k : SessionKeys} (live : k.Live h)
    (bounded : k.current.epoch ≤ u64Max) {call : Call} {s : Sent}
    (emitted : sentBy (Machine.fire (SessionKeys.step h aead) k call) = some s) :
    ∃ header ciphertext, Sealed h aead k.session.prk k.sendDirection s header ciphertext := by
  cases call with
  | sealFrame channel plaintext =>
    cases result : (k.sealFrame h aead channel plaintext).1 with
    | error e => simp [sentBy,Machine.fire,SessionKeys.step,result] at emitted
    | ok frame =>
      obtain ⟨header,fits,-,use⟩ := SessionKeys.sealed_use h aead k live bounded (.sealFrame channel plaintext)
        frame (congrArg Response.sealed result)
      obtain ⟨plaintext',ciphertext,called,framed,encrypted⟩ := use.encrypted
      cases called
      simp only [sentBy,Machine.fire,SessionKeys.step,result,Option.some.injEq] at emitted
      subst emitted
      exact ⟨header,ciphertext,fits,use.direction,framed,encrypted⟩
  | openFrame | rekey | closeGracePeriod | zeroizeAll => cases emitted

theorem Invariant.atSender {h : Hkdf} {aead : Aead} {l : Link} (inv : l.Invariant h aead) (call : Call)
    (spared : call ≠ .zeroizeAll) : (l.step h aead (.atSender call)).2.Invariant h aead := by
  have live := inv.sender.live
  obtain ⟨session,role⟩ := SessionKeys.step_fixed h aead l.sender live call spared
  have direction : (l.sender.step h aead call).2.sendDirection = l.sender.sendDirection := by
    simp only [SessionKeys.sendDirection,role]
  have epochs := SessionKeys.step_epoch h aead l.sender live.intact inv.senderEpoch call
  have extended := headers_sent h aead l call
  refine ⟨?_,?_,?_,?_,?_,inv.receiverEpoch,?_⟩
  · rw [extended]
    exact inv.sender.advance l.headers_low inv.senderEpoch aead call spared
  · change (l.sender.step h aead call).2.current.epoch ≤ u64Max
    have := inv.senderEpoch
    omega
  · intro s member
    change ∃ header ciphertext, Sealed h aead (l.sender.step h aead call).2.session.prk
      (l.sender.step h aead call).2.sendDirection s header ciphertext
    rw [session,direction]
    rcases List.mem_append.mp member with old | new
    · exact inv.records s old
    · exact sentBy_sealed live inv.senderEpoch (Option.mem_toList.mp new)
  · exact inv.root.trans session.symm
  · exact fun same => inv.roles (same.trans role)
  · rw [extended]
    exact inv.receiver.more (List.subset_append_left _ _)

theorem Invariant.receive {h : Hkdf} {aead : Aead} {l : Link} (inv : l.Invariant h aead) (call : Call)
    (spared : call ≠ .zeroizeAll)
    (receiving : (l.receiver.step h aead call).2.Receiving h l.headers
      (l.accepted ++ (openedHeader (Machine.fire (SessionKeys.step h aead) l.receiver call)).toList)) :
    (l.receive h aead call).2.Invariant h aead := by
  obtain ⟨session,role⟩ := SessionKeys.step_fixed h aead l.receiver inv.receiver.live call spared
  have epochs := SessionKeys.step_epoch h aead l.receiver inv.receiver.live.intact inv.receiverEpoch call
  refine ⟨inv.sender,inv.senderEpoch,inv.records,session.trans inv.root,
    fun same => inv.roles (role.symm.trans same),?_,receiving⟩
  change (l.receiver.step h aead call).2.current.epoch ≤ u64Max
  have := inv.receiverEpoch
  omega

theorem step_invariant (h : Hkdf) (aead : Aead) (l : Link) (call : LinkCall) (allowed : Allowed call)
    (inv : l.Invariant h aead) : (l.step h aead call).2.Invariant h aead := by
  cases call with
  | atSender call => exact inv.atSender call allowed
  | atReceiver call =>
    exact inv.receive call allowed.1 (inv.receiver.other inv.receiverEpoch aead call allowed.1 allowed.2)
  | deliver now channel index =>
    simp only [step]
    cases taken : l.sent[index]? with
    | none => exact inv
    | some s =>
      apply inv.receive (.openFrame now channel s.frame) (by simp)
      exact inv.receiver.openFrame inv.receiverEpoch aead now channel s.frame
        (fun x parsed low => mem_headers (List.mem_of_getElem? taken) x parsed low)

end Link

namespace SessionKeys

/-- The receiving slot that a session holds for a channel and an epoch. -/
def receivingSlot (k : SessionKeys) (channel : ChannelId) (direction : Direction) (epoch : Nat) :
    Option ChannelState :=
  if epoch = k.current.epoch then k.current.get? channel direction
  else
    match k.prior with
    | none => none
    | some p => if epoch = p.epoch then p.get? channel direction else none

/-- `max_gen` of that slot; an epoch that is not derived yet starts at zero. -/
def maxGenAt (k : SessionKeys) (channel : ChannelId) (direction : Direction) (epoch : Nat) : Nat :=
  match k.receivingSlot channel direction epoch with
  | none => 0
  | some st => st.ratchet.maxGen

variable {epoch : Nat} {k : SessionKeys}

theorem receivingSlot_current {c : ChannelId} {d : Direction} {st : ChannelState}
    (current : epoch = k.current.epoch) (found : k.current.get? c d = some st) :
    k.receivingSlot c d epoch = some st := by
  rw [receivingSlot,if_pos current]
  exact found

theorem receivingSlot_prior {c : ChannelId} {d : Direction} {st : ChannelState}
    {p : EpochKeys} (retained : k.prior = some p) (behind : p.epoch + 1 = k.current.epoch)
    (prior : epoch = p.epoch) (found : p.get? c d = some st) : k.receivingSlot c d epoch = some st := by
  have older : ¬epoch = k.current.epoch := by omega
  simp only [receivingSlot,if_neg older,retained,if_pos prior]
  exact found

theorem receivingSlot_next (c : ChannelId) (d : Direction)
    (behind : ∀ p, k.prior = some p → p.epoch + 1 = k.current.epoch) (next : epoch = k.current.epoch + 1) :
    k.receivingSlot c d epoch = none := by
  have newer : ¬epoch = k.current.epoch := by omega
  cases retained : k.prior with
  | none => simp only [receivingSlot,if_neg newer,retained]
  | some p =>
    have other : ¬epoch = p.epoch := by
      have := behind p retained
      omega
    simp only [receivingSlot,if_neg newer,retained,if_neg other]

def Reaches (k : SessionKeys) (epoch : Nat) : Prop :=
  epoch = k.current.epoch ∨ (∃ p, k.prior = some p ∧ epoch = p.epoch) ∨ epoch = k.current.epoch + 1

end SessionKeys

namespace Link

variable {aead : Aead} {ciphertext : Bytes} {header : ChannelFrameHeader} {l : Link} {h : Hkdf} {s : Sent}

theorem Invariant.addressed (correct : aead.Correct) (inv : l.Invariant h aead)
    (record : Sealed h aead l.sender.session.prk l.sender.sendDirection s header ciphertext) :
    SessionKeys.Addressed l.receiver header.channel s.frame header := by
  apply record.addressed correct l.receiver
  intro same
  have roles := inv.roles
  simp only [SessionKeys.sendDirection] at same
  revert roles same
  cases l.sender.role <;> cases l.receiver.role <;> simp

theorem receivingSlot_cases {k : SessionKeys} {c : ChannelId} {d : Direction} {epoch : Nat} {st : ChannelState}
    (slot : k.receivingSlot c d epoch = some st) :
    epoch = k.current.epoch ∧ k.current.get? c d = some st ∨
    ∃ p, k.prior = some p ∧ epoch ≠ k.current.epoch ∧ epoch = p.epoch ∧ p.get? c d = some st := by
  unfold SessionKeys.receivingSlot at slot
  split_ifs at slot with current
  · exact .inl ⟨current,slot⟩
  · cases retained : k.prior with
    | none => simp [retained] at slot
    | some p =>
      simp only [retained,Option.ite_none_right_eq_some] at slot
      exact .inr ⟨p,rfl,current,slot⟩

/-- An epoch that follows the accepted frames has its floor below what its windows admit. -/
theorem Invariant.tracked_floor (inv : l.Invariant h aead) (sent : s ∈ l.sent)
    (record : Sealed h aead l.sender.session.prk l.sender.sendDirection s header ciphertext)
    (receiving : header.direction ≠ l.receiver.sendDirection) {e : EpochKeys} {st : ChannelState}
    (tracks : e.Tracks l.accepted l.receiver.sendDirection) (epoch : header.epoch = e.epoch)
    (low : header.epoch < u64Max) (found : e.get? header.channel header.direction = some st)
    (fresh : st.replay.check header.seq = .ok ()) : st.ratchet.maxGen ≤ header.generation + genWindow := by
  have member := mem_headers sent header record.parsed low
  have admits := ((tracks.windows (by omega)).admits_iff found receiving header.seq).mp fresh
  have climb := (tracks.climbs (by omega)).at found receiving
  rw [← epoch] at admits climb
  exact climb_le inv.sender.ordered member
    (fun y accepted same => inv.receiver.known y accepted (by omega)) climb admits.2

theorem Invariant.floor {h : Hkdf} {aead : Aead} {l : Link} (inv : l.Invariant h aead) {s : Sent}
    (sent : s ∈ l.sent) {header : ChannelFrameHeader} {ciphertext : Bytes}
    (record : Sealed h aead l.sender.session.prk l.sender.sendDirection s header ciphertext)
    (receiving : header.direction ≠ l.receiver.sendDirection) {st : ChannelState}
    (slot : l.receiver.receivingSlot header.channel header.direction header.epoch = some st)
    (fresh : st.replay.check header.seq = .ok ()) :
    st.ratchet.maxGen ≤ header.generation + genWindow := by
  have bounded := record.fits.epoch
  rcases receivingSlot_cases slot with ⟨current,found⟩ | ⟨p,retained,other,prior,found⟩
  · by_cases low : header.epoch < u64Max
    · exact inv.tracked_floor sent record receiving inv.receiver.current current low found fresh
    · have least := (inv.receiver.last (by omega)).at found receiving
      exact least.trans (Nat.le_add_left _ _)
  · obtain ⟨behind,tracks⟩ := inv.receiver.prior p retained
    have low : header.epoch < u64Max := by
      simp only [satAdd] at behind
      omega
    exact inv.tracked_floor sent record receiving tracks prior low found fresh

theorem Invariant.opens_next (correct : aead.Correct) (inv : l.Invariant h aead)
    (record : Sealed h aead l.sender.session.prk l.sender.sendDirection s header ciphertext)
    (next : header.epoch = satAdd u64Max l.receiver.current.epoch 1)
    (ahead : header.generation ≤ genAheadLimit) (now : Int) :
    (l.receiver.openFrame h aead now header.channel s.frame).1 = .ok s.plaintext := by
  have addressed := inv.addressed correct record
  rw [← inv.root] at record
  have opens := record.opens correct (ChannelState.new (EpochKeys.baseKey h l.receiver.session.prk
    header.channel header.direction header.epoch)) rfl (Nat.zero_le _) (ahead.trans (Nat.le_add_left _ _))
  exact congrArg Prod.fst (SessionKeys.openFrame_at_next addressed next
    (ChannelState.openFrame_opens (fromBaseKey_eq h _) opens) now)

theorem Invariant.opens (correct : aead.Correct) (inv : l.Invariant h aead) (sent : s ∈ l.sent)
    (record : Sealed h aead l.sender.session.prk l.sender.sendDirection s header ciphertext)
    (apart : ¬(header.epoch = u64Max ∧ l.receiver.current.epoch = u64Max))
    (reaches : l.receiver.Reaches header.epoch)
    (admits : SlidingWindow.Admits replayWindow
      (acceptedSeqs l.accepted header.channel header.epoch) header.seq)
    (ahead : header.generation ≤
      l.receiver.maxGenAt header.channel header.direction header.epoch + genAheadLimit) (now : Int) :
    (l.receiver.openFrame h aead now header.channel s.frame).1 = .ok s.plaintext := by
  have state := inv.receiver
  have addressed := inv.addressed correct record
  have bounded := record.fits.epoch
  have bounded' := inv.receiverEpoch
  rcases reaches with current | ⟨p,retained,prior⟩ | next
  · have below : l.receiver.current.epoch < u64Max := by omega
    obtain ⟨st,found,chain⟩ := state.live.current header.channel header.direction
    have slot := SessionKeys.receivingSlot_current current found
    have fresh : st.replay.check header.seq = .ok () := by
      rw [(state.current.windows below).admits_iff found addressed.direction,← current]
      exact admits
    have floor := inv.floor sent record addressed.direction slot fresh
    simp only [SessionKeys.maxGenAt,slot] at ahead
    rw [← inv.root] at record
    rw [← current] at chain
    exact SessionKeys.openFrame_at_current addressed current below found
      (ChannelState.openFrame_opens chain (record.opens correct st fresh floor ahead)) now
  · obtain ⟨behind,tracks⟩ := state.prior p retained
    have low : p.epoch < u64Max := by
      simp only [satAdd] at behind
      omega
    have behind := state.behind retained low
    obtain ⟨st,found,chain⟩ := state.live.prior p retained header.channel header.direction
    have slot := SessionKeys.receivingSlot_prior retained behind prior found
    have fresh : st.replay.check header.seq = .ok () := by
      rw [(tracks.windows low).admits_iff found addressed.direction,← prior]
      exact admits
    have floor := inv.floor sent record addressed.direction slot fresh
    simp only [SessionKeys.maxGenAt,slot] at ahead
    rw [← inv.root] at record
    rw [← prior] at chain
    exact SessionKeys.openFrame_at_prior addressed (by omega) bounded' retained found
      (ChannelState.openFrame_opens chain (record.opens correct st fresh floor ahead)) now
  · have below : l.receiver.current.epoch < u64Max := by omega
    have unreached := SessionKeys.receivingSlot_next header.channel header.direction
      (fun p retained => state.behind retained (by
        have := (state.prior p retained).1
        simp only [satAdd] at this
        omega)) next
    simp only [SessionKeys.maxGenAt,unreached,zero_add] at ahead
    exact inv.opens_next correct record (next.trans (satAdd_of_le below).symm) ahead now

/-- What the receiver asks of a frame's header: an epoch it can open, a number that is new
and at most 1023 below the highest accepted, a generation within the ahead limit. -/
structure Deliverable (l : Link) (x : ChannelFrameHeader) : Prop where
  reaches : l.receiver.Reaches x.epoch
  new : x.seq ∉ acceptedSeqs l.accepted x.channel x.epoch
  near : ∀ a ∈ acceptedSeqs l.accepted x.channel x.epoch, a ≤ x.seq + 1023
  ahead : x.generation ≤ l.receiver.maxGenAt x.channel x.direction x.epoch + genAheadLimit

theorem Deliverable.admits {x : ChannelFrameHeader} (deliverable : l.Deliverable x) :
    SlidingWindow.Admits replayWindow (acceptedSeqs l.accepted x.channel x.epoch) x.seq :=
  ⟨deliverable.new,fun a member => Nat.lt_succ_of_le (deliverable.near a member)⟩

theorem initial_invariant (h : Hkdf) (aead : Aead) (transport : NoiseSession) (role role' : HandshakeRole)
    (opposite : role' ≠ role) (now now' : Int) (sender receiver : SessionKeys)
    (created : SessionKeys.fromOutcome h ⟨transport,role⟩ now = .ok sender)
    (created' : SessionKeys.fromOutcome h ⟨transport,role'⟩ now' = .ok receiver) :
    (Link.mk sender receiver [] []).Invariant h aead := by
  have live := SessionKeys.fromOutcome_live h _ now sender created
  have live' := SessionKeys.fromOutcome_live h _ now' receiver created'
  have epoch := SessionKeys.fromOutcome_epoch h _ now sender created
  have epoch' := SessionKeys.fromOutcome_epoch h _ now' receiver created'
  rw [SessionKeys.fromOutcome_eq] at created created'
  cases created
  cases created'
  refine ⟨⟨live,.nil,?_,?_,?_⟩,Nat.zero_le _,?_,rfl,opposite,Nat.zero_le _,live',?_,?_,?_,?_,?_⟩
  · simp [headers]
  · simp [headers]
  · simp [headers]
  · simp
  · simp
  · simp
  · exact EpochKeys.freshEpoch_tracks h _ _ _ 0 now' (fun _ => by simp)
  · simp
  · exact fun _ => EpochKeys.freshEpoch_low h _ _ 0 now'

/-- At the last epoch number a frame of that epoch is opened against freshly derived keys,
which reach only the first generations. -/
theorem refused_at_last_epoch (h : Hkdf) (aead : Aead) (k : SessionKeys) (live : k.Live h)
    (last : k.current.epoch = u64Max) (channel : ChannelId) (frame : Bytes) (x : ChannelFrameHeader)
    (parsed : ChannelFrameHeader.parse (frame.take channelHeaderLen) = .ok x)
    (epoch : x.epoch = u64Max) (far : genAheadLimit < x.generation) (now : Int) :
    ∃ e, (k.openFrame h aead now channel frame).1 = .error e := by
  have outcome := SessionKeys.openFrame_outcome h aead k live.intact now channel frame
  generalize k.openFrame h aead now channel frame = result at outcome ⊢
  cases outcome with
  | refused e => exact ⟨e,rfl⟩
  | current header st st' plaintext addressed _ room found opened => omega
  | prior header p st st' plaintext addressed behind retained found opened =>
    cases parsed.symm.trans addressed.parsed
    omega
  | next header st' plaintext addressed _ opened =>
    cases parsed.symm.trans addressed.parsed
    have inside := (ChannelState.opened_inv (fromBaseKey_eq h _) opened).1.inside
    exact absurd ((inWindow_zero_iff _).mp inside) (Nat.not_le.mpr far)

theorem Invariant.opens_last_iff (correct : aead.Correct) (inv : l.Invariant h aead)
    (record : Sealed h aead l.sender.session.prk l.sender.sendDirection s header ciphertext)
    (epoch : header.epoch = u64Max) (last : l.receiver.current.epoch = u64Max) (now : Int) :
    (l.receiver.openFrame h aead now header.channel s.frame).1 = .ok s.plaintext ↔
      header.generation ≤ genAheadLimit := by
  constructor
  · intro opened
    by_contra far
    obtain ⟨e,refused⟩ := refused_at_last_epoch h aead l.receiver inv.receiver.live last header.channel s.frame
      header record.parsed epoch (Nat.not_le.mp far) now
    rw [opened] at refused
    cases refused
  · refine fun ahead => inv.opens_next correct record ?_ ahead now
    rw [epoch,last]
    decide

/-- Sealed frames open. The two ends run in any interleaving; frames are delivered in any
order, any number of times; both ends rekey as they like. The one exception is exact: once
the receiver stands at the last epoch number, a frame of that epoch opens if and only if
its generation is at most `GEN_AHEAD_LIMIT`. -/
theorem sent_frames_open (h : Hkdf) (aead : Aead) (correct : aead.Correct) (transport : NoiseSession)
    (role role' : HandshakeRole) (opposite : role' ≠ role) (now now' : Int)
    (sender receiver : SessionKeys)
    (created : SessionKeys.fromOutcome h ⟨transport,role⟩ now = .ok sender)
    (created' : SessionKeys.fromOutcome h ⟨transport,role'⟩ now' = .ok receiver)
    (calls : List LinkCall) (allowed : ∀ call ∈ calls, Allowed call) :
    let l := Machine.final (step h aead) ⟨sender,receiver,[],[]⟩ calls
    ∀ s ∈ l.sent, ∃ x,
      ChannelFrameHeader.parse (s.frame.take channelHeaderLen) = .ok x ∧
      (l.Deliverable x → ∀ clock,
        ((l.receiver.openFrame h aead clock x.channel s.frame).1 = .ok s.plaintext ↔
          (l.receiver.current.epoch = 2 ^ 64 - 1 → x.epoch = 2 ^ 64 - 1 → x.generation ≤ genAheadLimit))) ∧
      ∀ st, l.receiver.receivingSlot x.channel x.direction x.epoch = some st →
        st.replay.check x.seq = .ok () → st.ratchet.maxGen - genWindow ≤ x.generation := by
  intro l s sent
  have inv : l.Invariant h aead := Machine.final_invariant (step h aead) (fun _ => Allowed)
    (Invariant h aead) (fun s call allowed inv => step_invariant h aead s call allowed inv) _ calls
    (initial_invariant h aead transport role role' opposite now now' sender receiver created created')
    (fun e member => allowed _ (Machine.mem_trace_call _ _ _ e member))
  obtain ⟨x,ciphertext,record⟩ := inv.records s sent
  have receiving := (inv.addressed correct record).direction
  refine ⟨x,record.parsed,fun deliverable clock => ?_,fun st slot fresh => ?_⟩
  · by_cases last : x.epoch = u64Max ∧ l.receiver.current.epoch = u64Max
    · rw [inv.opens_last_iff correct record last.1 last.2 clock]
      exact ⟨fun ahead _ _ => ahead,fun reach => reach last.2 last.1⟩
    · have opens := inv.opens correct sent record last deliverable.reaches deliverable.admits
        deliverable.ahead clock
      exact ⟨fun _ current epoch => absurd ⟨epoch,current⟩ last,fun _ => opens⟩
  · have floor := inv.floor sent record receiving slot fresh
    omega

/-- A frame sealed after the sender rekeyed reaches a receiver that has not. -/
theorem sent_frames_open_lazily :
    let calls : List LinkCall := [.atSender (.sealFrame .control [1]),.atSender (.rekey 2),
      .atSender (.sealFrame .control [3])]
    let l := Machine.final (step Transparent.hkdf Transparent.aead)
      ⟨Transparent.session .initiator,Transparent.session .responder,[],[]⟩ calls
    ∃ s ∈ l.sent, l.Deliverable ⟨.control,.i2r,1,0,0⟩ ∧
      (l.receiver.openFrame Transparent.hkdf Transparent.aead 9 .control s.frame).1 = .ok [3] := by
  intro calls l
  have sent : l.sent[1]? = some ⟨[3],ChannelFrameHeader.encode ⟨.control,.i2r,1,0,0⟩ ++ [3] ++
    (EpochKeys.baseKey Transparent.hkdf (Vector.replicate 32 7) .control .i2r 1).toList.take 16⟩ := rfl
  have deliverable : l.Deliverable ⟨.control,.i2r,1,0,0⟩ :=
    ⟨.inr (.inr rfl),by simp [acceptedSeqs,l,calls,Machine.final,step],
      by simp [acceptedSeqs,l,calls,Machine.final,step],Nat.zero_le _⟩
  obtain ⟨x,parsed,opens,-⟩ := sent_frames_open Transparent.hkdf Transparent.aead Transparent.aead_correct
    (Transparent.outcome .initiator).transport .initiator .responder (by decide) 0 0 _ _
    (Transparent.session_created .initiator) (Transparent.session_created .responder) calls
    (by simp [calls,Allowed]) _ (List.mem_of_getElem? sent)
  have header : Except.ok ⟨.control,.i2r,1,0,0⟩ = Except.ok x := parsed
  cases header
  exact ⟨_,List.mem_of_getElem? sent,deliverable,
    (opens deliverable 9).mpr (fun _ last => absurd last (by decide))⟩

end Link

end Streamhaul
