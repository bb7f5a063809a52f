import Streamhaul.ChannelAtomicity

/-! The kill switch. It erases the live chains and writes zeros over the root key, but
a zero root is still a root: derivation accepts it, so the two calls that derive an
epoch can bring the session back. Between them nothing else can. -/
namespace Streamhaul

open RatchetChain

/-- The root key that the kill switch leaves, known to everyone. -/
def zeroPrk : Key := Vector.replicate 32 0

/-- A seal or an open that handed something out. -/
def Response.succeeded : Response → Bool
  | .sealed (.ok _) => true
  | .opened (.ok _) => true
  | _ => false

namespace SessionKeys

/-- A killed session: no chain holds a key, no prior epoch is retained. -/
structure Killed (k : SessionKeys) : Prop where
  current : k.current.Slots (fun _ _ st => st.ratchet.liveKeys = AssocMap.empty)
  prior : k.prior = none
  root : k.session.prk = zeroPrk

theorem zeroizeAll_killed (h : Hkdf) (k : SessionKeys) (intact : k.Intact h) : k.zeroizeAll.Killed := by
  refine ⟨fun c d => ?_,rfl,rfl⟩
  obtain ⟨st,found,-⟩ := intact.current c d
  refine ⟨st.zeroize,?_,rfl⟩
  change k.current.zeroizeEpochKeys.get? c d = _
  rw [EpochKeys.get?_zeroizeEpochKeys,found]
  rfl

theorem Killed.intact {k : SessionKeys} (killed : k.Killed) (h : Hkdf) : k.Intact h := by
  refine ⟨killed.current.imp (fun _ _ _ _ cleared => .inr cleared),fun p retained => ?_⟩
  rw [killed.prior] at retained
  cases retained

/-- A frame of the next epoch that verifies under keys derived from the zero root. -/
def Forged (h : Hkdf) (aead : Aead) (k : SessionKeys) (channel : ChannelId) (frame : Bytes) : Prop :=
  ∃ header, Addressed k channel frame header ∧ header.epoch = satAdd u64Max k.current.epoch 1 ∧
    header.generation ≤ genAheadLimit ∧
    (aead.decrypt (chainKey h (EpochKeys.baseKey h zeroPrk header.channel header.direction header.epoch)
      header.generation) (buildNonce header.generation header.seq) header.aad
      (frame.drop channelHeaderLen)).isSome

theorem new_opens_iff (h : Hkdf) (aead : Aead) (base : Key) (header : ChannelFrameHeader)
    (frame plaintext : Bytes) (long : channelHeaderLen ≤ frame.length) :
    (ChannelState.new base).Opens h aead base header frame plaintext ↔
      header.generation ≤ genAheadLimit ∧ aead.decrypt (chainKey h base header.generation)
        (buildNonce header.generation header.seq) header.aad (frame.drop channelHeaderLen) =
          some plaintext := by
  constructor
  · intro opens
    exact ⟨(inWindow_zero_iff _).mp opens.inside,opens.authentic⟩
  · rintro ⟨near,authentic⟩
    exact ⟨rfl,(inWindow_zero_iff _).mpr near,long,authentic⟩

theorem new_openFrame_iff (h : Hkdf) (aead : Aead) (base : Key) (header : ChannelFrameHeader)
    (frame plaintext : Bytes) (long : channelHeaderLen ≤ frame.length) :
    (∃ st', (ChannelState.new base).openFrame h aead header frame = (.ok plaintext,st')) ↔
      header.generation ≤ genAheadLimit ∧ aead.decrypt (chainKey h base header.generation)
        (buildNonce header.generation header.seq) header.aad (frame.drop channelHeaderLen) =
          some plaintext := by
  rw [← new_opens_iff h aead base header frame plaintext long]
  have chain : (ChannelState.new base).ratchet = chainAt h base (ChannelState.new base).ratchet.maxGen :=
    fromBaseKey_eq h base
  constructor
  · rintro ⟨st',opened⟩
    exact (ChannelState.opened_inv chain opened).1
  · intro opens
    exact ⟨_,ChannelState.openFrame_opens chain opens⟩

/-- A killed session accepts exactly the frames forged under the zero root. -/
theorem openFrame_killed_iff (h : Hkdf) (aead : Aead) (k : SessionKeys) (killed : k.Killed) (now : Int)
    (channel : ChannelId) (frame : Bytes) :
    (∃ plaintext, (k.openFrame h aead now channel frame).1 = .ok plaintext) ↔
      Forged h aead k channel frame := by
  constructor
  · rintro ⟨plaintext,succeeded⟩
    have outcome := openFrame_outcome h aead k (killed.intact h) now channel frame
    generalize k.openFrame h aead now channel frame = result at outcome succeeded
    cases outcome with
    | refused e => simp at succeeded
    | current header st st' _ addressed epoch room found opened =>
      obtain ⟨e,refused⟩ := st.openFrame_cleared h aead (killed.current.at found) header frame
      rw [opened] at refused
      simp at refused
    | prior header p st st' _ addressed epoch retained found opened =>
      rw [killed.prior] at retained
      cases retained
    | next header st' opening addressed epoch opened =>
      rw [killed.root] at opened
      have long : channelHeaderLen ≤ frame.length := by have := addressed.long; omega
      obtain ⟨near,authentic⟩ := (new_openFrame_iff h aead _ header frame opening long).mp ⟨st',opened⟩
      exact ⟨header,addressed,epoch,near,by rw [authentic]; rfl⟩
  · rintro ⟨header,addressed,epoch,near,authentic⟩
    obtain ⟨plaintext,authentic⟩ := Option.isSome_iff_exists.mp authentic
    have long : channelHeaderLen ≤ frame.length := by have := addressed.long; omega
    obtain ⟨st',opened⟩ :=
      (new_openFrame_iff h aead _ header frame plaintext long).mpr ⟨near,authentic⟩
    rw [← killed.root] at opened
    exact ⟨plaintext,congrArg Prod.fst (openFrame_at_next addressed epoch opened now)⟩

theorem sealFrame_killed (h : Hkdf) (aead : Aead) (k : SessionKeys) (killed : k.Killed)
    (channel : ChannelId) (plaintext : Bytes) :
    ∃ e, k.sealFrame h aead channel plaintext = (.error e,k) := by
  obtain ⟨st,found,cleared⟩ := killed.current channel k.sendDirection
  obtain ⟨e,refused⟩ :=
    st.sealFrame_cleared h aead cleared channel k.sendDirection k.current.epoch plaintext
  refine ⟨e,?_⟩
  rw [sealFrame_error found refused,EpochKeys.set_get? found]

/-- What must not happen after the kill: an epoch derived again, by either call. -/
def KeepsKilled (h : Hkdf) (aead : Aead) (k : SessionKeys) : Call → Prop
  | .rekey _ => False
  | .openFrame _ channel frame => ¬ Forged h aead k channel frame
  | _ => True

theorem step_killed (h : Hkdf) (aead : Aead) (k : SessionKeys) (killed : k.Killed) (call : Call)
    (keeps : KeepsKilled h aead k call) :
    (k.step h aead call).1.succeeded = false ∧ (k.step h aead call).2.Killed := by
  cases call with
  | sealFrame channel plaintext =>
    obtain ⟨e,refused⟩ := sealFrame_killed h aead k killed channel plaintext
    simp only [step,refused]
    exact ⟨rfl,killed⟩
  | openFrame now channel frame =>
    have outcome := openFrame_outcome h aead k (killed.intact h) now channel frame
    have refused := (not_congr (openFrame_killed_iff h aead k killed now channel frame)).mpr keeps
    simp only [step]
    generalize k.openFrame h aead now channel frame = result at outcome refused ⊢
    cases outcome with
    | refused e => exact ⟨rfl,killed⟩
    | current | prior | next => simp at refused
  | rekey now => exact keeps.elim
  | closeGracePeriod => exact ⟨rfl,killed.current,rfl,killed.root⟩
  | zeroizeAll => exact ⟨rfl,zeroizeAll_killed h k (killed.intact h)⟩

/-- After the kill switch, whatever the calls and the frames, nothing is sealed or opened
as long as no epoch is derived from the zero root. -/
theorem zeroizeAll_final (h : Hkdf) (aead : Aead) (outcome : HandshakeOutcome) (now : Int)
    (k₀ k : SessionKeys) (created : fromOutcome h outcome now = .ok k₀)
    (reachable : Machine.Reachable (step h aead) k₀ k) (calls : List Call)
    (kept : ∀ e ∈ Machine.trace (step h aead) k.zeroizeAll calls, KeepsKilled h aead e.before e.call) :
    ∀ e ∈ Machine.trace (step h aead) k.zeroizeAll calls, e.response.succeeded = false := by
  intro e member
  have killed := zeroizeAll_killed h k (reachable_intact h aead outcome now k₀ k created reachable)
  obtain ⟨before,fired⟩ := Machine.trace_invariant _ (KeepsKilled h aead) Killed
    (fun s call keeps killed => (step_killed h aead s killed call keeps).2) _ calls killed kept e member
  rw [fired]
  exact (step_killed h aead e.before before e.call (kept e member)).1

/-- A killed session that had sent and rekeyed is offered a frame of its current epoch. -/
theorem zeroizeAll_final_quiet :
    let step := step Transparent.hkdf Transparent.aead
    let k := Machine.final step (Transparent.session .responder) [.sealFrame .control [1],.rekey 5]
    let frame := ChannelFrameHeader.encode ⟨.control,.i2r,1,0,0⟩ ++ List.replicate 16 0
    ∀ e ∈ Machine.trace step k.zeroizeAll
      [.openFrame 6 .control frame,.closeGracePeriod,.sealFrame .control [1]],
      e.response.succeeded = false := by
  refine zeroizeAll_final _ _ (Transparent.outcome .responder) 0 (Transparent.session .responder) _
    (Transparent.session_created .responder) ⟨_,rfl⟩ _ ?_
  intro e member
  simp only [Machine.trace,List.mem_cons,List.not_mem_nil,or_false] at member
  rcases member with rfl | rfl | rfl
  · rintro ⟨header,addressed,epoch,-⟩
    have parsed : Except.ok ⟨.control,.i2r,1,0,0⟩ = Except.ok header := addressed.parsed
    cases parsed
    exact absurd epoch (by decide)
  · trivial
  · trivial

theorem new_sealFrame (h : Hkdf) (aead : Aead) (base : Key) (c : ChannelId) (d : Direction) (epoch : Nat)
    (plaintext : Bytes) (accepts : aead.Accepts plaintext) :
    ∃ frame st', (ChannelState.new base).sealFrame h aead c d epoch plaintext = (.ok frame,st') := by
  have first : (ChannelState.new base).nextSeq < seqHardLimit := by simp [ChannelState.new,seqHardLimit]
  have generation : (ChannelState.new base).sealGen < genHardLimit := by
    simp [ChannelState.new,ChannelState.sealGen,ChannelState.Due,genHardLimit,u32Max]
  rcases ChannelState.sealFrame_cases h aead base _ (ChannelState.new_sending h base) c d epoch plaintext
    with ⟨full,-⟩ | ⟨-,-,failed,-⟩ | ⟨_,-,-,-,succeeded⟩
  · omega
  · have taken := accepts (chainKey h base (ChannelState.new base).sealGen)
      (buildNonce (ChannelState.new base).sealGen (ChannelState.new base).nextSeq)
      (ChannelFrameHeader.aad
        ⟨c,d,epoch,(ChannelState.new base).sealGen,(ChannelState.new base).nextSeq⟩)
    rw [failed] at taken
    cases taken
  · exact ⟨_,_,succeeded⟩

/-- The zero root is a root: after a rekey every plaintext the cipher takes is sealed. -/
theorem rekey_revives (h : Hkdf) (aead : Aead) (k : SessionKeys) (now : Int) (channel : ChannelId)
    (plaintext : Bytes) (accepts : aead.Accepts plaintext) :
    ∃ frame, ((k.rekey h now).2.sealFrame h aead channel plaintext).1 = .ok frame := by
  rw [rekey_eq]
  generalize revived : ({ k with
      current := EpochKeys.freshEpoch h k.session.prk (satAdd u64Max k.current.epoch 1) now
      prior := some k.current
      msgsThisEpoch := 0 } : SessionKeys) = k'
  have found : k'.current.get? channel k'.sendDirection = some (ChannelState.new (EpochKeys.baseKey h
      k.session.prk channel k'.sendDirection (satAdd u64Max k.current.epoch 1))) := by
    rw [← revived]
    exact EpochKeys.get?_freshEpoch h k.session.prk _ now channel _
  obtain ⟨frame,st',succeeded⟩ :=
    new_sealFrame h aead _ channel k'.sendDirection k'.current.epoch plaintext accepts
  refine ⟨frame,?_⟩
  rw [sealFrame_ok found succeeded]

/-- Killed sessions that seal again: one was rekeyed, the other accepted a frame that
its peer never sent. -/
theorem zeroizeAll_not_final :
    let responses := fun calls => (Machine.trace (step Transparent.hkdf Transparent.aead)
      (Transparent.session .responder).zeroizeAll calls).map (fun e => e.response.succeeded)
    let tag := (EpochKeys.baseKey Transparent.hkdf zeroPrk .control .i2r 1).toList.take 16
    let forged := ChannelFrameHeader.encode ⟨.control,.i2r,1,0,0⟩ ++ tag
    responses [.rekey 0,.sealFrame .control []] = [false,true] ∧
    responses [.openFrame 0 .control forged,.sealFrame .control []] = [true,true] :=
  ⟨rfl,rfl⟩

end SessionKeys

end Streamhaul
