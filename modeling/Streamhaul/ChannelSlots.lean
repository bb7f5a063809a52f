import Streamhaul.ChannelCrypto

/-! What one call can do to one slot, and how slots sit in an epoch. Later results
cite these inversion lemmas and never unfold the calls again. -/
namespace Streamhaul

open RatchetChain

namespace EpochKeys

variable {c c' : ChannelId} {d d' : Direction}

theorem slot_injective (same : slot c d = slot c' d') :
    c = c' ∧ d = d' := by
  revert same
  cases c <;> cases d <;> cases c' <;> cases d' <;> decide

variable {e : EpochKeys}

theorem get?_set_self {c : ChannelId} {d : Direction} {old : ChannelState}
    (found : e.get? c d = some old) (st : ChannelState) : (e.set c d st).get? c d = some st := by
  have bound : slot c d < e.states.length := (List.getElem?_eq_some_iff.mp found).1
  simp [get?,set,bound]

theorem get?_set_other (e : EpochKeys) (st : ChannelState)
    (apart : ¬(c' = c ∧ d' = d)) : (e.set c d st).get? c' d' = e.get? c' d' := by
  have indices : slot c d ≠ slot c' d' := by
    intro same
    obtain ⟨hc,hd⟩ := slot_injective same
    exact apart ⟨hc.symm,hd.symm⟩
  simp [get?,set,List.getElem?_set_ne indices]

theorem get?_set_cases {old st x : ChannelState}
    (found : e.get? c d = some old) (after : (e.set c d st).get? c' d' = some x) :
    (c' = c ∧ d' = d ∧ x = st) ∨ (¬(c' = c ∧ d' = d) ∧ e.get? c' d' = some x) := by
  by_cases same : c' = c ∧ d' = d
  · obtain ⟨rfl,rfl⟩ := same
    rw [get?_set_self found] at after
    exact .inl ⟨rfl,rfl,(Option.some.inj after).symm⟩
  · rw [get?_set_other e st same] at after
    exact .inr ⟨same,after⟩

theorem set_get? {c : ChannelId} {d : Direction} {st : ChannelState}
    (found : e.get? c d = some st) : e.set c d st = e := by
  obtain ⟨bound,equal⟩ := List.getElem?_eq_some_iff.mp found
  cases e
  simp only [set,mk.injEq,true_and,and_true]
  rw [← equal]
  exact List.set_getElem_self bound

@[simp] theorem set_epoch (e : EpochKeys) (c : ChannelId) (d : Direction) (st : ChannelState) :
    (e.set c d st).epoch = e.epoch := rfl

def Slots (P : ChannelId → Direction → ChannelState → Prop) (e : EpochKeys) : Prop :=
  ∀ c d, ∃ st, e.get? c d = some st ∧ P c d st

theorem Slots.at {P : ChannelId → Direction → ChannelState → Prop} (slots : Slots P e)
    {c : ChannelId} {d : Direction} {st : ChannelState} (found : e.get? c d = some st) : P c d st := by
  obtain ⟨st',found',holds⟩ := slots c d
  rw [found] at found'
  cases found'
  exact holds

theorem Slots.set {P : ChannelId → Direction → ChannelState → Prop} {e : EpochKeys} (slots : Slots P e)
    {c : ChannelId} {d : Direction} {st : ChannelState} (holds : P c d st) : Slots P (e.set c d st) := by
  intro c' d'
  by_cases same : c' = c ∧ d' = d
  · obtain ⟨rfl,rfl⟩ := same
    obtain ⟨old,found,-⟩ := slots c' d'
    exact ⟨st,get?_set_self found st,holds⟩
  · obtain ⟨old,found,keeps⟩ := slots c' d'
    exact ⟨old,by rw [get?_set_other e st same,found],keeps⟩

theorem Slots.imp {P Q : ChannelId → Direction → ChannelState → Prop}
    (slots : Slots P e) (implies : ∀ c d st, e.get? c d = some st → P c d st → Q c d st) :
    Slots Q e := by
  intro c d
  obtain ⟨st,found,holds⟩ := slots c d
  exact ⟨st,found,implies c d st found holds⟩

def baseKey (h : Hkdf) (prk : Key) (c : ChannelId) (d : Direction) (epoch : Nat) : Key :=
  h.okm prk.toList (NoiseSession.exportInfo chanLabel (slotContext c.toU8.toNat d.idx epoch)) 32

def freshEpoch (h : Hkdf) (prk : Key) (epoch : Nat) (now : Int) : EpochKeys where
  epoch := epoch
  states := slotIndices.map (fun i => ChannelState.new
    (h.okm prk.toList (NoiseSession.exportInfo chanLabel (slotContext i.1 i.2 epoch)) 32))
  startedAtSecs := now

theorem exportKeyingMaterial_slot (h : Hkdf) (session : NoiseSession) (chIdx dirIdx epoch : Nat) :
    session.exportKeyingMaterial h chanLabel (slotContext chIdx dirIdx epoch) 32 =
      .ok (h.okm session.prk.toList
        (NoiseSession.exportInfo chanLabel (slotContext chIdx dirIdx epoch)) 32) := by
  have label : ¬ u32Max < chanLabel.length := by decide
  have context : ¬ u32Max < (slotContext chIdx dirIdx epoch).length := by
    simp [slotContext,u32Max]
  simp [NoiseSession.exportKeyingMaterial,label,context]

/-- Derivation always succeeds and gives the fresh epoch, whatever the root key is. -/
theorem deriveEpochKeys_eq (h : Hkdf) (session : NoiseSession) (epoch : Nat) (now : Int) :
    deriveEpochKeys h session epoch now = .ok (freshEpoch h session.prk epoch now) := by
  have states (indices : List (Nat × Nat)) : deriveStates h session epoch indices =
      .ok (indices.map (fun i => ChannelState.new (h.okm session.prk.toList
        (NoiseSession.exportInfo chanLabel (slotContext i.1 i.2 epoch)) 32))) := by
    induction indices with
    | nil => rfl
    | cons i rest ih => simp only [deriveStates,exportKeyingMaterial_slot,ih,List.map_cons]
  simp only [deriveEpochKeys,states,freshEpoch]

theorem get?_freshEpoch (h : Hkdf) (prk : Key) (epoch : Nat) (now : Int) (c : ChannelId)
    (d : Direction) :
    (freshEpoch h prk epoch now).get? c d = some (ChannelState.new (baseKey h prk c d epoch)) := by
  cases c <;> cases d <;> rfl

theorem slots_freshEpoch {P : ChannelId → Direction → ChannelState → Prop} (h : Hkdf) (prk : Key)
    (epoch : Nat) (now : Int)
    (holds : ∀ c d, P c d (ChannelState.new (baseKey h prk c d epoch))) :
    Slots P (freshEpoch h prk epoch now) :=
  fun c d => ⟨_,get?_freshEpoch h prk epoch now c d,holds c d⟩

end EpochKeys

namespace ChannelState

abbrev Due (st : ChannelState) : Prop := st.framesSealed > 0 ∧ st.framesSealed % ratchetInterval = 0

def sealGen (st : ChannelState) : Nat := if st.Due then st.currentGen + 1 else st.currentGen

/-- A sending slot: one chain position per generation, one frame counter. -/
structure Sending (h : Hkdf) (base : Key) (st : ChannelState) : Prop where
  chain : st.ratchet = chainAt h base st.currentGen
  generation : st.currentGen < genHardLimit
  counters : st.framesSealed = st.nextSeq
  bounded : st.nextSeq ≤ seqHardLimit

theorem new_sending (h : Hkdf) (base : Key) : Sending h base (new base) :=
  ⟨fromBaseKey_eq h base,by simp [new,genHardLimit,u32Max],rfl,by simp [new]⟩

def ratcheted (h : Hkdf) (base : Key) (st : ChannelState) : ChannelState :=
  { st with ratchet := chainAt h base st.sealGen, currentGen := st.sealGen }

theorem inWindow_self {m : Nat} (bound : m < genHardLimit) : InWindow m m := by
  constructor
  · omega
  · simp only [satAdd,genHardLimit,u32Max,genAheadLimit] at *; omega

theorem inWindow_succ {m : Nat} (bound : m + 1 < genHardLimit) : InWindow m (m + 1) := by
  constructor
  · omega
  · simp only [satAdd,genHardLimit,u32Max,genAheadLimit] at *; omega

theorem ratchetIfDue_cases (h : Hkdf) (base : Key) (st : ChannelState) (sending : Sending h base st) :
    (genHardLimit ≤ st.sealGen ∧ st.ratchetIfDue h = (.error .nonceExhausted,st)) ∨
    (st.ratchetIfDue h = (.ok (),st.ratcheted h base) ∧ st.sealGen < genHardLimit) := by
  by_cases due : st.Due
  · have gen : st.sealGen = st.currentGen + 1 := if_pos due
    by_cases wide : u32Max < st.currentGen + 1
    · refine .inl ⟨?_,by rw [ratchetIfDue,if_pos due,if_pos wide]⟩
      rw [gen]
      exact (Nat.sub_le _ _).trans wide.le
    by_cases room : genHardLimit ≤ st.currentGen + 1
    · refine .inl ⟨by rw [gen]; exact room,?_⟩
      simp only [ratchetIfDue,if_pos due,if_neg wide,if_pos room]
    · have advance := getOrAdvanceTo_chainAt h base _ _ (inWindow_succ (Nat.lt_of_not_le room))
      rw [← sending.chain,max_eq_right (Nat.le_succ _)] at advance
      refine .inr ⟨?_,by omega⟩
      rw [ratchetIfDue,if_pos due,if_neg wide]
      simp only [if_neg room,advance,ratcheted,gen]
  · have gen : st.sealGen = st.currentGen := if_neg due
    refine .inr ⟨?_,by rw [gen]; exact sending.generation⟩
    rw [ratchetIfDue,if_neg due,ratcheted,gen,← sending.chain]

/-- A seal either refuses at a hard limit without touching the slot, or it ratchets and the cipher
refuses, or it ratchets and emits one frame. The second case keeps the advance. -/
theorem sealFrame_cases (h : Hkdf) (aead : Aead) (base : Key) (st : ChannelState)
    (sending : Sending h base st) (c : ChannelId) (d : Direction) (epoch : Nat) (plaintext : Bytes) :
    let header : ChannelFrameHeader := ⟨c,d,epoch,st.sealGen,st.nextSeq⟩
    let encrypted := aead.encrypt (chainKey h base st.sealGen) (buildNonce st.sealGen st.nextSeq)
      header.aad plaintext
    ((seqHardLimit ≤ st.nextSeq ∨ genHardLimit ≤ st.sealGen) ∧
      st.sealFrame h aead c d epoch plaintext = (.error .nonceExhausted,st)) ∨
    (st.sealGen < genHardLimit ∧ st.nextSeq < seqHardLimit ∧ encrypted = none ∧
      st.sealFrame h aead c d epoch plaintext = (.error .aeadFailure,st.ratcheted h base)) ∨
    (∃ ciphertext, st.sealGen < genHardLimit ∧ st.nextSeq < seqHardLimit ∧
      encrypted = some ciphertext ∧ st.sealFrame h aead c d epoch plaintext =
        (.ok (header.encode ++ ciphertext),{ st.ratcheted h base with
          nextSeq := st.nextSeq + 1, framesSealed := st.nextSeq + 1 })) := by
  intro header encrypted
  by_cases limit : seqHardLimit ≤ st.nextSeq
  · exact .inl ⟨.inl limit,by rw [sealFrame,if_pos limit]⟩
  have room : st.nextSeq < seqHardLimit := Nat.lt_of_not_le limit
  rcases ratchetIfDue_cases h base st sending with ⟨full,exhausted⟩ | ⟨advanced,bound⟩
  · exact .inl ⟨.inr full,by simp only [sealFrame,if_neg limit,exhausted]⟩
  have key := getOrAdvanceTo_chainAt h base _ _ (inWindow_self bound)
  rw [max_self] at key
  have counter : satAdd u64Max st.nextSeq 1 = st.nextSeq + 1 :=
    satAdd_of_le (by simp only [seqHardLimit,u64Max] at *; omega)
  have body : st.sealFrame h aead c d epoch plaintext =
      (st.ratcheted h base).encryptFrame h aead c d epoch plaintext := by
    simp only [sealFrame,if_neg limit,advanced]
  simp only [body,encryptFrame,ratcheted,key,sending.counters,counter]
  cases outcome : encrypted with
  | none =>
    refine .inr (.inl ⟨bound,room,rfl,?_⟩)
    simp only [encrypted,header] at outcome
    simp only [outcome]
  | some ciphertext =>
    refine .inr (.inr ⟨ciphertext,bound,room,rfl,?_⟩)
    simp only [encrypted,header] at outcome
    simp only [outcome,header]

theorem ratcheted_sending (h : Hkdf) (base : Key) (st : ChannelState) (sending : Sending h base st)
    (bound : st.sealGen < genHardLimit) : Sending h base (st.ratcheted h base) :=
  ⟨rfl,bound,sending.counters,sending.bounded⟩

/-- What an accepted frame satisfies at a slot whose chain is anchored at `base`. -/
structure Opens (h : Hkdf) (aead : Aead) (base : Key) (st : ChannelState) (header : ChannelFrameHeader)
    (frame plaintext : Bytes) : Prop where
  fresh : st.replay.check header.seq = .ok ()
  inside : InWindow st.ratchet.maxGen header.generation
  long : channelHeaderLen ≤ frame.length
  authentic : aead.decrypt (chainKey h base header.generation)
    (buildNonce header.generation header.seq) header.aad (frame.drop channelHeaderLen) = some plaintext

def accepted (h : Hkdf) (base : Key) (st : ChannelState) (header : ChannelFrameHeader) : ChannelState :=
  { st with
    ratchet := chainAt h base (max st.ratchet.maxGen header.generation)
    replay := st.replay.accept header.seq }

theorem openFrame_opens {h : Hkdf} {aead : Aead} {base : Key} {st : ChannelState}
    {header : ChannelFrameHeader} {frame plaintext : Bytes}
    (chain : st.ratchet = chainAt h base st.ratchet.maxGen)
    (opens : Opens h aead base st header frame plaintext) :
    st.openFrame h aead header frame = (.ok plaintext,st.accepted h base header) := by
  have key := deriveKeyTransient_chainAt h base _ _ opens.inside
  have commit := commitAdvanceTo_chainAt h base st.ratchet.maxGen header.generation
    (opens.inside.2.trans (satAdd_le _ _ _))
  rw [← chain] at key commit
  have ciphertext : slice? frame channelHeaderLen frame.length = some (frame.drop channelHeaderLen) := by
    rw [slice?_eq_some_iff]
    exact ⟨opens.long,le_rfl,List.take_of_length_le (by simp)⟩
  simp only [openFrame,opens.fresh,key,ciphertext,opens.authentic,commit,accepted]

/-- A slot with a live chain either accepts the frame or is left as it was. -/
theorem openFrame_cases (h : Hkdf) (aead : Aead) (base : Key) (st : ChannelState)
    (chain : st.ratchet = chainAt h base st.ratchet.maxGen) (header : ChannelFrameHeader) (frame : Bytes) :
    (∃ e, st.openFrame h aead header frame = (.error e,st)) ∨
    ∃ plaintext, Opens h aead base st header frame plaintext ∧
      st.openFrame h aead header frame = (.ok plaintext,st.accepted h base header) := by
  cases replay : st.replay.check header.seq with
  | error e => exact .inl ⟨e,by simp only [openFrame,replay]⟩
  | ok _ =>
    by_cases inside : InWindow st.ratchet.maxGen header.generation
    · have key := deriveKeyTransient_chainAt h base _ _ inside
      rw [← chain] at key
      by_cases long : channelHeaderLen ≤ frame.length
      · have ciphertext : slice? frame channelHeaderLen frame.length =
            some (frame.drop channelHeaderLen) := by
          rw [slice?_eq_some_iff]
          exact ⟨long,le_rfl,List.take_of_length_le (by simp)⟩
        cases authentic : aead.decrypt (chainKey h base header.generation)
            (buildNonce header.generation header.seq) header.aad (frame.drop channelHeaderLen) with
        | none =>
          exact .inl ⟨.aeadFailure,by simp only [openFrame,replay,key,ciphertext,authentic]⟩
        | some plaintext =>
          have opens : Opens h aead base st header frame plaintext := ⟨replay,inside,long,authentic⟩
          exact .inr ⟨plaintext,opens,openFrame_opens chain opens⟩
      · have missing : slice? frame channelHeaderLen frame.length = none := if_neg (by omega)
        exact .inl ⟨_,by simp only [openFrame,replay,key,missing]; rfl⟩
    · obtain ⟨e,refused⟩ := deriveKeyTransient_outside h st.ratchet _ inside
      exact .inl ⟨.aeadFailure,by simp only [openFrame,replay,refused]⟩

theorem opened_inv {h : Hkdf} {aead : Aead} {base : Key} {st st' : ChannelState}
    {header : ChannelFrameHeader} {frame plaintext : Bytes}
    (chain : st.ratchet = chainAt h base st.ratchet.maxGen)
    (opened : st.openFrame h aead header frame = (.ok plaintext,st')) :
    Opens h aead base st header frame plaintext ∧ st' = st.accepted h base header := by
  rcases openFrame_cases h aead base st chain header frame with ⟨e,refused⟩ | ⟨found,opens,accepted⟩
  · rw [opened] at refused
    simp at refused
  · rw [opened] at accepted
    simp only [Prod.mk.injEq,Except.ok.injEq] at accepted
    obtain ⟨rfl,rfl⟩ := accepted
    exact ⟨opens,rfl⟩

theorem openFrame_cleared (h : Hkdf) (aead : Aead) (st : ChannelState)
    (cleared : st.ratchet.liveKeys = AssocMap.empty) (header : ChannelFrameHeader) (frame : Bytes) :
    ∃ e, st.openFrame h aead header frame = (.error e,st) := by
  cases replay : st.replay.check header.seq with
  | error e => exact ⟨e,by simp only [openFrame,replay]⟩
  | ok _ =>
    obtain ⟨e,refused⟩ := deriveKeyTransient_cleared h st.ratchet.maxGen header.generation
    rw [← cleared] at refused
    exact ⟨.aeadFailure,by simp only [openFrame,replay,refused]⟩

theorem sealFrame_cleared (h : Hkdf) (aead : Aead) (st : ChannelState)
    (cleared : st.ratchet.liveKeys = AssocMap.empty) (c : ChannelId) (d : Direction) (epoch : Nat)
    (plaintext : Bytes) : ∃ e, st.sealFrame h aead c d epoch plaintext = (.error e,st) := by
  have refused (gen : Nat) : ∃ e, st.ratchet.getOrAdvanceTo h gen = (.error e,st.ratchet) := by
    have := getOrAdvanceTo_cleared h st.ratchet.maxGen gen
    rwa [← cleared] at this
  have encrypt : st.encryptFrame h aead c d epoch plaintext = (.error .aeadFailure,st) := by
    obtain ⟨e,failed⟩ := refused st.currentGen
    simp only [encryptFrame,failed]
  unfold sealFrame
  split_ifs with limit
  · exact ⟨_,rfl⟩
  unfold ratchetIfDue
  split_ifs with due wide
  · exact ⟨.nonceExhausted,rfl⟩
  · by_cases room : genHardLimit ≤ st.currentGen + 1
    · exact ⟨.nonceExhausted,by simp only [if_pos room]⟩
    · obtain ⟨e,failed⟩ := refused (st.currentGen + 1)
      exact ⟨e,by simp only [if_neg room,failed]⟩
  · exact ⟨.aeadFailure,encrypt⟩

end ChannelState

end Streamhaul
