import Streamhaul.ChannelSlots

/-! What one call can do to a whole session. An open is either refused and leaves the
session as it was, or writes exactly one slot of the current, the prior or the
candidate epoch. -/
namespace Streamhaul

open RatchetChain

namespace RatchetChain

/-- A chain that was only ever advanced, or one that the kill switch erased. -/
def Intact (h : Hkdf) (c : RatchetChain) : Prop :=
  (∃ base, c = chainAt h base c.maxGen) ∨ c.liveKeys = AssocMap.empty

theorem getOrAdvanceTo_intact (h : Hkdf) (c : RatchetChain) (intact : c.Intact h) (gen : Nat) :
    (c.getOrAdvanceTo h gen).2.Intact h := by
  by_cases inside : InWindow c.maxGen gen
  · rcases intact with ⟨base,chain⟩ | cleared
    · have advanced := getOrAdvanceTo_chainAt h base c.maxGen gen inside
      rw [← chain] at advanced
      rw [advanced]
      exact .inl ⟨base,rfl⟩
    · obtain ⟨e,failed⟩ := getOrAdvanceTo_cleared h c.maxGen gen
      rw [← cleared] at failed
      rw [failed]
      exact .inr cleared
  · obtain ⟨e,failed⟩ := getOrAdvanceTo_outside h c gen inside
    rw [failed]
    exact intact

end RatchetChain

namespace EpochKeys

def Intact (h : Hkdf) (e : EpochKeys) : Prop := Slots (fun _ _ st => st.ratchet.Intact h) e

/-- Every chain is anchored at the base key its slot derives from the root key. -/
def Anchored (h : Hkdf) (prk : Key) (e : EpochKeys) : Prop :=
  Slots (fun c d st => st.ratchet = chainAt h (baseKey h prk c d e.epoch) st.ratchet.maxGen) e

theorem Anchored.intact {h : Hkdf} {prk : Key} {e : EpochKeys} (anchored : Anchored h prk e) :
    Intact h e :=
  anchored.imp (fun _ _ _ _ chain => .inl ⟨_,chain⟩)

theorem freshEpoch_anchored (h : Hkdf) (prk : Key) (epoch : Nat) (now : Int) :
    Anchored h prk (freshEpoch h prk epoch now) :=
  slots_freshEpoch h prk epoch now (fun _ _ => fromBaseKey_eq h _)

end EpochKeys

namespace ChannelState

theorem openFrame_intact (h : Hkdf) (aead : Aead) (st : ChannelState) (intact : st.ratchet.Intact h)
    (header : ChannelFrameHeader) (frame : Bytes) :
    (∃ e, st.openFrame h aead header frame = (.error e,st)) ∨
    ∃ base plaintext, st.openFrame h aead header frame = (.ok plaintext,st.accepted h base header) := by
  rcases intact with ⟨base,chain⟩ | cleared
  · rcases openFrame_cases h aead base st chain header frame with refused | ⟨plaintext,-,opened⟩
    · exact .inl refused
    · exact .inr ⟨base,plaintext,opened⟩
  · exact .inl (openFrame_cleared h aead st cleared header frame)

theorem accepted_intact (h : Hkdf) (base : Key) (st : ChannelState) (header : ChannelFrameHeader) :
    (st.accepted h base header).ratchet.Intact h := .inl ⟨base,rfl⟩

theorem ratchetIfDue_intact (h : Hkdf) (st : ChannelState) (intact : st.ratchet.Intact h) :
    (st.ratchetIfDue h).2.ratchet.Intact h := by
  have advanced := getOrAdvanceTo_intact h st.ratchet intact (st.currentGen + 1)
  unfold ratchetIfDue
  split_ifs with due wide
  · exact intact
  · dsimp only
    split_ifs with room
    · exact intact
    · split <;> simp_all
  · exact intact

theorem encryptFrame_intact (h : Hkdf) (aead : Aead) (st : ChannelState) (intact : st.ratchet.Intact h)
    (c : ChannelId) (d : Direction) (epoch : Nat) (plaintext : Bytes) :
    (st.encryptFrame h aead c d epoch plaintext).2.ratchet.Intact h := by
  have advanced := getOrAdvanceTo_intact h st.ratchet intact st.currentGen
  unfold encryptFrame
  dsimp only
  split
  · simp_all
  · split <;> simp_all

theorem sealFrame_intact (h : Hkdf) (aead : Aead) (st : ChannelState) (intact : st.ratchet.Intact h)
    (c : ChannelId) (d : Direction) (epoch : Nat) (plaintext : Bytes) :
    (st.sealFrame h aead c d epoch plaintext).2.ratchet.Intact h := by
  have advanced := ratchetIfDue_intact h st intact
  unfold sealFrame
  split_ifs with limit
  · exact intact
  · split
    · simp_all
    · rename_i ratcheted due
      rw [due] at advanced
      exact encryptFrame_intact h aead ratcheted advanced c d epoch plaintext

end ChannelState

namespace SessionKeys

structure Intact (h : Hkdf) (k : SessionKeys) : Prop where
  current : k.current.Intact h
  prior : ∀ p, k.prior = some p → p.Intact h

/-- The checks on a frame that come before any key is consulted. -/
structure Addressed (k : SessionKeys) (channel : ChannelId) (frame : Bytes)
    (header : ChannelFrameHeader) : Prop where
  long : channelHeaderLen + 16 ≤ frame.length
  parsed : ChannelFrameHeader.parse (frame.take channelHeaderLen) = .ok header
  channel : header.channel = channel
  direction : header.direction ≠ k.sendDirection

variable {aead : Aead} {channel : ChannelId} {frame plaintext : Bytes} {h : Hkdf} {header : ChannelFrameHeader}
  {k : SessionKeys} {st st' : ChannelState}

theorem openFrame_addressed {frame : Bytes} (addressed : Addressed k channel frame header)
    (now : Int) : k.openFrame h aead now channel frame = k.openHeader h aead now header frame := by
  have short : ¬ frame.length < channelHeaderLen + 16 := Nat.not_lt.mpr addressed.long
  have headerBytes : slice? frame 0 channelHeaderLen = some (frame.take channelHeaderLen) := by
    rw [slice?_eq_some_iff]
    exact ⟨Nat.zero_le _,by have := addressed.long; omega,rfl⟩
  simp only [openFrame,if_neg short,headerBytes,addressed.parsed,addressed.channel,
    if_neg addressed.direction,ne_eq,not_true_eq_false,if_false]

theorem openFrame_structural (h : Hkdf) (aead : Aead) (k : SessionKeys) (now : Int)
    (channel : ChannelId) (frame : Bytes) :
    (∃ e, k.openFrame h aead now channel frame = (.error e,k)) ∨
    ∃ header, Addressed k channel frame header := by
  by_cases short : frame.length < channelHeaderLen + 16
  · exact .inl ⟨_,if_pos short⟩
  have headerBytes : slice? frame 0 channelHeaderLen = some (frame.take channelHeaderLen) := by
    rw [slice?_eq_some_iff]
    exact ⟨Nat.zero_le _,by omega,rfl⟩
  cases parsed : ChannelFrameHeader.parse (frame.take channelHeaderLen) with
  | error e => exact .inl ⟨e,by simp only [openFrame,if_neg short,headerBytes,parsed]⟩
  | ok header =>
    by_cases wrong : header.channel ≠ channel
    · exact .inl ⟨.malformedChannelFrame "channel id mismatch",
        by simp only [openFrame,if_neg short,headerBytes,parsed,if_pos wrong]⟩
    by_cases reflected : header.direction = k.sendDirection
    · exact .inl ⟨.malformedChannelFrame "reflected direction",
        by simp only [openFrame,if_neg short,headerBytes,parsed,if_neg wrong,if_pos reflected]⟩
    · exact .inr ⟨header,Nat.not_lt.mp short,parsed,not_not.mp wrong,reflected⟩

/-- Everything an open can do: refuse and change nothing, or accept at one slot of the
current epoch, of the retained prior epoch, or of a freshly derived next epoch. -/
inductive OpenOutcome (h : Hkdf) (aead : Aead) (k : SessionKeys) (now : Int) (channel : ChannelId)
    (frame : Bytes) : Except CryptoError Bytes × SessionKeys → Prop where
  | refused (e : CryptoError) : OpenOutcome h aead k now channel frame (.error e,k)
  | current (header : ChannelFrameHeader) (st st' : ChannelState) (plaintext : Bytes)
      (addressed : Addressed k channel frame header)
      (epoch : header.epoch = k.current.epoch) (room : k.current.epoch < u64Max)
      (found : k.current.get? header.channel header.direction = some st)
      (opened : st.openFrame h aead header frame = (.ok plaintext,st')) :
      OpenOutcome h aead k now channel frame (.ok plaintext,{ k with
        current := k.current.set header.channel header.direction st' })
  | prior (header : ChannelFrameHeader) (p : EpochKeys) (st st' : ChannelState) (plaintext : Bytes)
      (addressed : Addressed k channel frame header)
      (epoch : header.epoch + 1 = k.current.epoch) (retained : k.prior = some p)
      (found : p.get? header.channel header.direction = some st)
      (opened : st.openFrame h aead header frame = (.ok plaintext,st')) :
      OpenOutcome h aead k now channel frame (.ok plaintext,{ k with
        prior := some (p.set header.channel header.direction st') })
  | next (header : ChannelFrameHeader) (st' : ChannelState) (plaintext : Bytes)
      (addressed : Addressed k channel frame header)
      (epoch : header.epoch = satAdd u64Max k.current.epoch 1)
      (opened : (ChannelState.new (EpochKeys.baseKey h k.session.prk header.channel header.direction
        header.epoch)).openFrame h aead header frame = (.ok plaintext,st')) :
      OpenOutcome h aead k now channel frame (.ok plaintext,{ k with
        current := (EpochKeys.freshEpoch h k.session.prk header.epoch now).set
          header.channel header.direction st'
        prior := some k.current
        msgsThisEpoch := 0 })

theorem openWithEpoch_intact (h : Hkdf) (aead : Aead) (e : EpochKeys) (intact : e.Intact h)
    (d : Direction) (header : ChannelFrameHeader) (frame : Bytes) :
    ∃ st, e.get? header.channel d = some st ∧
      ((∃ err, e.openWithEpoch h aead d header frame = (.error err,e)) ∨
      ∃ plaintext st', st.openFrame h aead header frame = (.ok plaintext,st') ∧
        e.openWithEpoch h aead d header frame = (.ok plaintext,e.set header.channel d st')) := by
  obtain ⟨st,found,chain⟩ := intact header.channel d
  refine ⟨st,found,?_⟩
  rcases st.openFrame_intact h aead chain header frame with ⟨err,refused⟩ | ⟨base,plaintext,opened⟩
  · refine .inl ⟨err,?_⟩
    simp only [EpochKeys.openWithEpoch,found,refused,EpochKeys.set_get? found]
  · exact .inr ⟨plaintext,_,opened,by simp only [EpochKeys.openWithEpoch,found,opened]⟩

theorem openHeader_outcome (h : Hkdf) (aead : Aead) (k : SessionKeys) (intact : k.Intact h) (now : Int)
    (channel : ChannelId) (frame : Bytes) (header : ChannelFrameHeader)
    (addressed : Addressed k channel frame header) :
    OpenOutcome h aead k now channel frame (k.openHeader h aead now header frame) := by
  unfold openHeader
  split_ifs with ahead nextEpoch priorEpoch older
  · exact .refused _
  · have fresh := EpochKeys.freshEpoch_anchored h k.session.prk header.epoch now
    obtain ⟨st,found,outcome⟩ :=
      openWithEpoch_intact h aead _ fresh.intact header.direction header frame
    rw [EpochKeys.get?_freshEpoch] at found
    cases found
    simp only [EpochKeys.deriveEpochKeys_eq]
    rcases outcome with ⟨err,refused⟩ | ⟨plaintext,st',opened,accepted⟩
    · simp only [refused]
      exact .refused _
    · simp only [accepted]
      exact .next header st' plaintext addressed nextEpoch opened
  · cases retained : k.prior with
    | none => exact .refused _
    | some p =>
      obtain ⟨st,found,outcome⟩ :=
        openWithEpoch_intact h aead p (intact.prior p retained) header.direction header frame
      rcases outcome with ⟨err,refused⟩ | ⟨plaintext,st',opened,accepted⟩
      · simp only [refused]
        rw [← retained]
        exact .refused _
      · simp only [accepted]
        exact .prior header p st st' plaintext addressed (by omega) retained found opened
  · exact .refused _
  · obtain ⟨st,found,outcome⟩ :=
      openWithEpoch_intact h aead k.current intact.current header.direction header frame
    have epoch : header.epoch = k.current.epoch ∧ k.current.epoch < u64Max := by
      simp only [satAdd] at ahead nextEpoch
      omega
    rcases outcome with ⟨err,refused⟩ | ⟨plaintext,st',opened,accepted⟩
    · simp only [refused]
      exact .refused _
    · simp only [accepted]
      exact .current header st st' plaintext addressed epoch.1 epoch.2 found opened

theorem openFrame_outcome (h : Hkdf) (aead : Aead) (k : SessionKeys) (intact : k.Intact h) (now : Int)
    (channel : ChannelId) (frame : Bytes) :
    OpenOutcome h aead k now channel frame (k.openFrame h aead now channel frame) := by
  rcases openFrame_structural h aead k now channel frame with ⟨e,refused⟩ | ⟨header,addressed⟩
  · rw [refused]
    exact .refused e
  · rw [openFrame_addressed addressed]
    exact openHeader_outcome h aead k intact now channel frame header addressed

theorem openFrame_at_current (addressed : Addressed k channel frame header) (epoch : header.epoch = k.current.epoch)
    (room : k.current.epoch < u64Max) (found : k.current.get? header.channel header.direction = some st)
    (opened : st.openFrame h aead header frame = (.ok plaintext,st')) (now : Int) :
    (k.openFrame h aead now channel frame).1 = .ok plaintext := by
  have advance : satAdd u64Max k.current.epoch 1 = k.current.epoch + 1 := satAdd_of_le room
  have ahead : ¬ k.current.epoch + 1 < header.epoch := by omega
  have next : ¬ header.epoch = k.current.epoch + 1 := by omega
  have older : ¬ header.epoch < k.current.epoch := by omega
  rw [openFrame_addressed addressed]
  simp only [openHeader,advance,if_neg ahead,if_neg next,older,false_and,if_false,
    EpochKeys.openWithEpoch,found,opened]

theorem openFrame_at_prior {p : EpochKeys}
    (addressed : Addressed k channel frame header) (epoch : header.epoch + 1 = k.current.epoch)
    (bounded : k.current.epoch ≤ u64Max) (retained : k.prior = some p)
    (found : p.get? header.channel header.direction = some st)
    (opened : st.openFrame h aead header frame = (.ok plaintext,st')) (now : Int) :
    (k.openFrame h aead now channel frame).1 = .ok plaintext := by
  have grown : k.current.epoch ≤ satAdd u64Max k.current.epoch 1 := le_min (Nat.le_succ _) bounded
  have ahead : ¬ satAdd u64Max k.current.epoch 1 < header.epoch := by omega
  have next : ¬ header.epoch = satAdd u64Max k.current.epoch 1 := by omega
  have older : header.epoch < k.current.epoch ∧ header.epoch = k.current.epoch - 1 := by omega
  rw [openFrame_addressed addressed]
  simp only [openHeader,if_neg ahead,if_neg next,if_pos older,retained,
    EpochKeys.openWithEpoch,found,opened]

theorem openFrame_at_next {st' : ChannelState} (addressed : Addressed k channel frame header)
    (epoch : header.epoch = satAdd u64Max k.current.epoch 1)
    (opened : (ChannelState.new (EpochKeys.baseKey h k.session.prk header.channel header.direction
      header.epoch)).openFrame h aead header frame = (.ok plaintext,st')) (now : Int) :
    k.openFrame h aead now channel frame = (.ok plaintext,{ k with
      current := (EpochKeys.freshEpoch h k.session.prk header.epoch now).set
        header.channel header.direction st'
      prior := some k.current
      msgsThisEpoch := 0 }) := by
  have ahead : ¬ satAdd u64Max k.current.epoch 1 < header.epoch := by omega
  rw [openFrame_addressed addressed]
  simp only [openHeader,if_neg ahead,if_pos epoch,EpochKeys.deriveEpochKeys_eq,
    EpochKeys.openWithEpoch,EpochKeys.get?_freshEpoch,opened]

theorem sealFrame_error {plaintext : Bytes} {e : CryptoError} (found : k.current.get? channel k.sendDirection = some st)
    (failed : st.sealFrame h aead channel k.sendDirection k.current.epoch plaintext = (.error e,st')) :
    k.sealFrame h aead channel plaintext =
      (.error e,{ k with current := k.current.set channel k.sendDirection st' }) := by
  simp only [sealFrame,found,failed]

theorem sealFrame_ok {plaintext frame : Bytes} (found : k.current.get? channel k.sendDirection = some st)
    (succeeded : st.sealFrame h aead channel k.sendDirection k.current.epoch plaintext =
      (.ok frame,st')) :
    k.sealFrame h aead channel plaintext = (.ok frame,{ k with
      current := k.current.set channel k.sendDirection st'
      msgsThisEpoch := satAdd u64Max k.msgsThisEpoch 1 }) := by
  simp only [sealFrame,found,succeeded]

theorem rekey_eq (h : Hkdf) (k : SessionKeys) (now : Int) :
    k.rekey h now = (.ok (),{ k with
      current := EpochKeys.freshEpoch h k.session.prk (satAdd u64Max k.current.epoch 1) now
      prior := some k.current
      msgsThisEpoch := 0 }) := by
  simp only [rekey,EpochKeys.deriveEpochKeys_eq]

theorem fromOutcome_eq (h : Hkdf) (outcome : HandshakeOutcome) (now : Int) :
    fromOutcome h outcome now = .ok ⟨outcome.transport,outcome.role,
      EpochKeys.freshEpoch h outcome.transport.prk 0 now,none,0⟩ := by
  simp only [fromOutcome,EpochKeys.deriveEpochKeys_eq]

end SessionKeys

namespace Transparent

def outcome (role : HandshakeRole) : HandshakeOutcome := ⟨⟨Vector.replicate 32 7⟩,role⟩

def session (role : HandshakeRole) : SessionKeys :=
  ⟨(outcome role).transport,role,EpochKeys.freshEpoch hkdf (outcome role).transport.prk 0 0,none,0⟩

theorem session_created (role : HandshakeRole) :
    SessionKeys.fromOutcome hkdf (outcome role) 0 = .ok (session role) :=
  SessionKeys.fromOutcome_eq hkdf (outcome role) 0

end Transparent

end Streamhaul
