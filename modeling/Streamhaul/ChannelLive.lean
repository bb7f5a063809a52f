import Streamhaul.ChannelAtomicity

/-! Sessions that were never killed. Their chains are anchored at the root key, their
sending slots count frames, and their epoch moves by at most one per call. -/
namespace Streamhaul

open RatchetChain

namespace ChannelState

def emitted (h : Hkdf) (base : Key) (st : ChannelState) : ChannelState :=
  { st.ratcheted h base with nextSeq := st.nextSeq + 1, framesSealed := st.nextSeq + 1 }

theorem emitted_sending (h : Hkdf) (base : Key) (st : ChannelState)
    (bound : st.sealGen < genHardLimit) (room : st.nextSeq < seqHardLimit) :
    Sending h base (st.emitted h base) := ⟨rfl,bound,rfl,room⟩

end ChannelState

namespace SessionKeys

structure Live (h : Hkdf) (k : SessionKeys) : Prop where
  current : k.current.Anchored h k.session.prk
  prior : ∀ p, k.prior = some p → p.Anchored h k.session.prk
  sending : k.current.Slots (fun c d st => d = k.sendDirection →
    st.Sending h (EpochKeys.baseKey h k.session.prk c d k.current.epoch))

variable {h : Hkdf} {k : SessionKeys}

theorem Live.intact (live : k.Live h) : k.Intact h :=
  ⟨live.current.intact,fun p retained => (live.prior p retained).intact⟩

def sendBase (h : Hkdf) (k : SessionKeys) (channel : ChannelId) : Key :=
  EpochKeys.baseKey h k.session.prk channel k.sendDirection k.current.epoch

def sealHeader (k : SessionKeys) (channel : ChannelId) (st : ChannelState) : ChannelFrameHeader :=
  ⟨channel,k.sendDirection,k.current.epoch,st.sealGen,st.nextSeq⟩

/-- Everything a seal of a live session can do. A refusal by the cipher keeps the
ratchet advance that came before it. -/
inductive SealOutcome (h : Hkdf) (aead : Aead) (k : SessionKeys) (channel : ChannelId)
    (plaintext : Bytes) : Except CryptoError Bytes × SessionKeys → Prop where
  | exhausted (st : ChannelState) (found : k.current.get? channel k.sendDirection = some st)
      (full : seqHardLimit ≤ st.nextSeq ∨ genHardLimit ≤ st.sealGen) :
      SealOutcome h aead k channel plaintext (.error .nonceExhausted,k)
  | refused (st : ChannelState) (found : k.current.get? channel k.sendDirection = some st)
      (bound : st.sealGen < genHardLimit)
      (failed : aead.encrypt (chainKey h (k.sendBase h channel) st.sealGen)
        (buildNonce st.sealGen st.nextSeq) (k.sealHeader channel st).aad plaintext = none) :
      SealOutcome h aead k channel plaintext (.error .aeadFailure,{ k with
        current := k.current.set channel k.sendDirection (st.ratcheted h (k.sendBase h channel)) })
  | emitted (st : ChannelState) (ciphertext : Bytes)
      (found : k.current.get? channel k.sendDirection = some st)
      (bound : st.sealGen < genHardLimit) (room : st.nextSeq < seqHardLimit)
      (encrypted : aead.encrypt (chainKey h (k.sendBase h channel) st.sealGen)
        (buildNonce st.sealGen st.nextSeq) (k.sealHeader channel st).aad plaintext = some ciphertext) :
      SealOutcome h aead k channel plaintext (.ok ((k.sealHeader channel st).encode ++ ciphertext),{ k with
        current := k.current.set channel k.sendDirection (st.emitted h (k.sendBase h channel))
        msgsThisEpoch := satAdd u64Max k.msgsThisEpoch 1 })

theorem sealFrame_outcome (h : Hkdf) (aead : Aead) (k : SessionKeys) (live : k.Live h)
    (channel : ChannelId) (plaintext : Bytes) :
    SealOutcome h aead k channel plaintext (k.sealFrame h aead channel plaintext) := by
  obtain ⟨st,found,sending⟩ := live.sending channel k.sendDirection
  rcases st.sealFrame_cases h aead _ (sending rfl) channel k.sendDirection k.current.epoch plaintext with
    ⟨full,limit⟩ | ⟨bound,-,failed,refused⟩ | ⟨ciphertext,bound,room,encrypted,succeeded⟩
  · rw [sealFrame_error found limit,EpochKeys.set_get? found]
    exact .exhausted st found full
  · rw [sealFrame_error found refused]
    exact .refused st found bound failed
  · rw [sealFrame_ok found succeeded]
    exact .emitted st ciphertext found bound room encrypted

theorem sealFrame_succeeds {aead : Aead} (live : k.Live h) {channel : ChannelId} {plaintext : Bytes} {st : ChannelState}
    (found : k.current.get? channel k.sendDirection = some st) (room : st.nextSeq < seqHardLimit)
    (bound : st.sealGen < genHardLimit) (accepts : aead.Accepts plaintext) :
    ∃ ciphertext, aead.encrypt (chainKey h (k.sendBase h channel) st.sealGen)
        (buildNonce st.sealGen st.nextSeq) (k.sealHeader channel st).aad plaintext = some ciphertext ∧
      k.sealFrame h aead channel plaintext = (.ok ((k.sealHeader channel st).encode ++ ciphertext),{ k with
        current := k.current.set channel k.sendDirection (st.emitted h (k.sendBase h channel))
        msgsThisEpoch := satAdd u64Max k.msgsThisEpoch 1 }) := by
  have outcome := sealFrame_outcome h aead k live channel plaintext
  generalize k.sealFrame h aead channel plaintext = result at outcome ⊢
  cases outcome with
  | exhausted st' found' full =>
    cases found.symm.trans found'
    omega
  | refused st' found' _ failed =>
    have taken := accepts (chainKey h (k.sendBase h channel) st'.sealGen)
      (buildNonce st'.sealGen st'.nextSeq) (k.sealHeader channel st').aad
    rw [failed] at taken
    cases taken
  | emitted st' ciphertext found' _ _ encrypted =>
    cases found.symm.trans found'
    exact ⟨ciphertext,encrypted,rfl⟩

theorem sealFrame_refused {aead : Aead} (live : k.Live h) {channel : ChannelId} {plaintext : Bytes} {st : ChannelState}
    (found : k.current.get? channel k.sendDirection = some st) (room : st.nextSeq < seqHardLimit)
    (bound : st.sealGen < genHardLimit)
    (refuses : ∀ key nonce aad, aead.encrypt key nonce aad plaintext = none) :
    k.sealFrame h aead channel plaintext = (.error .aeadFailure,{ k with
      current := k.current.set channel k.sendDirection (st.ratcheted h (k.sendBase h channel)) }) := by
  have outcome := sealFrame_outcome h aead k live channel plaintext
  generalize k.sealFrame h aead channel plaintext = result at outcome ⊢
  cases outcome with
  | exhausted st' found' full =>
    cases found.symm.trans found'
    omega
  | refused st' found' _ _ =>
    cases found.symm.trans found'
    rfl
  | emitted st' ciphertext _ _ _ encrypted =>
    rw [refuses] at encrypted
    cases encrypted

theorem fromOutcome_live (h : Hkdf) (outcome : HandshakeOutcome) (now : Int) (k : SessionKeys)
    (created : fromOutcome h outcome now = .ok k) : k.Live h := by
  rw [fromOutcome_eq] at created
  cases created
  exact ⟨EpochKeys.freshEpoch_anchored h _ 0 now,fun p retained => by simp at retained,
    EpochKeys.slots_freshEpoch h _ 0 now (fun c d _ => ChannelState.new_sending h _)⟩

theorem rekey_live (h : Hkdf) (k : SessionKeys) (live : k.Live h) (now : Int) :
    (k.rekey h now).2.Live h := by
  rw [rekey_eq]
  refine ⟨EpochKeys.freshEpoch_anchored h _ _ now,fun p retained => ?_,
    EpochKeys.slots_freshEpoch h _ _ now (fun c d _ => ChannelState.new_sending h _)⟩
  cases retained
  exact live.current

theorem sealFrame_live (h : Hkdf) (aead : Aead) (k : SessionKeys) (live : k.Live h)
    (channel : ChannelId) (plaintext : Bytes) : (k.sealFrame h aead channel plaintext).2.Live h := by
  have outcome := sealFrame_outcome h aead k live channel plaintext
  generalize k.sealFrame h aead channel plaintext = result at outcome ⊢
  cases outcome with
  | exhausted => exact live
  | refused st found bound failed =>
    have sending := live.sending.at found rfl
    exact ⟨live.current.set rfl,live.prior,
      live.sending.set (fun _ => st.ratcheted_sending h _ sending bound)⟩
  | emitted st ciphertext found bound room encrypted =>
    exact ⟨live.current.set rfl,live.prior,
      live.sending.set (fun _ => st.emitted_sending h _ bound room)⟩

theorem openFrame_live (h : Hkdf) (aead : Aead) (k : SessionKeys) (live : k.Live h) (now : Int)
    (channel : ChannelId) (frame : Bytes) : (k.openFrame h aead now channel frame).2.Live h := by
  have outcome := openFrame_outcome h aead k live.intact now channel frame
  generalize k.openFrame h aead now channel frame = result at outcome ⊢
  cases outcome with
  | refused e => exact live
  | current header st st' plaintext addressed epoch room found opened =>
    obtain ⟨-,rfl⟩ := ChannelState.opened_inv (live.current.at found) opened
    exact ⟨live.current.set rfl,live.prior,
      live.sending.set (fun same => absurd same addressed.direction)⟩
  | prior header p st st' plaintext addressed epoch retained found opened =>
    have anchored := live.prior p retained
    obtain ⟨-,rfl⟩ := ChannelState.opened_inv (anchored.at found) opened
    refine ⟨live.current,fun q kept => ?_,live.sending⟩
    cases kept
    exact anchored.set rfl
  | next header st' plaintext addressed epoch opened =>
    have fresh := EpochKeys.freshEpoch_anchored h k.session.prk header.epoch now
    obtain ⟨-,rfl⟩ := ChannelState.opened_inv (fresh.at (EpochKeys.get?_freshEpoch ..)) opened
    have sending : (EpochKeys.freshEpoch h k.session.prk header.epoch now).Slots (fun c d st =>
        d = k.sendDirection → st.Sending h (EpochKeys.baseKey h k.session.prk c d header.epoch)) :=
      EpochKeys.slots_freshEpoch h _ _ now (fun c d _ => ChannelState.new_sending h _)
    refine ⟨fresh.set rfl,fun q kept => ?_,sending.set (fun same => absurd same addressed.direction)⟩
    cases kept
    exact live.current

theorem step_live (h : Hkdf) (aead : Aead) (k : SessionKeys) (live : k.Live h) (call : Call)
    (spared : call ≠ .zeroizeAll) : (k.step h aead call).2.Live h := by
  cases call with
  | sealFrame channel plaintext => exact sealFrame_live h aead k live channel plaintext
  | openFrame now channel frame => exact openFrame_live h aead k live now channel frame
  | rekey now => exact rekey_live h k live now
  | closeGracePeriod =>
    exact ⟨live.current,fun q kept => by simp [step,closeGracePeriod] at kept,live.sending⟩
  | zeroizeAll => exact absurd rfl spared

theorem step_fixed (h : Hkdf) (aead : Aead) (k : SessionKeys) (live : k.Live h) (call : Call)
    (spared : call ≠ .zeroizeAll) :
    (k.step h aead call).2.session = k.session ∧ (k.step h aead call).2.role = k.role := by
  cases call with
  | sealFrame channel plaintext =>
    have outcome := sealFrame_outcome h aead k live channel plaintext
    simp only [step]
    generalize k.sealFrame h aead channel plaintext = result at outcome ⊢
    cases outcome <;> exact ⟨rfl,rfl⟩
  | openFrame now channel frame =>
    have outcome := openFrame_outcome h aead k live.intact now channel frame
    simp only [step]
    generalize k.openFrame h aead now channel frame = result at outcome ⊢
    cases outcome <;> exact ⟨rfl,rfl⟩
  | rekey now => simp [step,rekey_eq]
  | closeGracePeriod => exact ⟨rfl,rfl⟩
  | zeroizeAll => exact absurd rfl spared

theorem step_epoch (h : Hkdf) (aead : Aead) (k : SessionKeys) (intact : k.Intact h)
    (bounded : k.current.epoch ≤ u64Max) (call : Call) :
    (k.step h aead call).2.current.epoch = k.current.epoch ∨
      ((k.step h aead call).2.current.epoch = k.current.epoch + 1 ∧ k.current.epoch < u64Max) := by
  have advance : satAdd u64Max k.current.epoch 1 = k.current.epoch ∨
      (satAdd u64Max k.current.epoch 1 = k.current.epoch + 1 ∧ k.current.epoch < u64Max) := by
    simp only [satAdd]
    omega
  cases call with
  | sealFrame channel plaintext =>
    simp only [step,sealFrame]
    split
    · exact .inl rfl
    · split <;> exact .inl rfl
  | openFrame now channel frame =>
    have outcome := openFrame_outcome h aead k intact now channel frame
    simp only [step]
    generalize k.openFrame h aead now channel frame = result at outcome ⊢
    cases outcome with
    | refused | current | prior => exact .inl rfl
    | next header st' plaintext addressed epoch opened =>
      change header.epoch = _ ∨ (header.epoch = _ ∧ _)
      rw [epoch]
      exact advance
  | rekey now => simp only [step,rekey_eq]; exact advance
  | closeGracePeriod | zeroizeAll => exact .inl rfl

def epochAdvances (events : List CallEvent) : Nat :=
  events.countP (fun e => e.after.current.epoch ≠ e.before.current.epoch)

/-- A run with fewer than `2^64 - 1` epoch advances never sees a saturated epoch. -/
theorem run_epoch (h : Hkdf) (aead : Aead) (k : SessionKeys) (intact : k.Intact h)
    (first : k.current.epoch = 0) (calls : List Call)
    (few : epochAdvances (Machine.trace (step h aead) k calls) < u64Max) :
    ∀ e ∈ Machine.trace (step h aead) k calls, e.before.current.epoch < u64Max := by
  have preserved (s : SessionKeys) (call : Call) (inv : s.Intact h ∧ s.current.epoch ≤ u64Max) :
      (s.step h aead call).2.Intact h ∧ (s.step h aead call).2.current.epoch ≤ u64Max := by
    refine ⟨step_intact h aead s call inv.1,?_⟩
    have := step_epoch h aead s inv.1 inv.2 call
    omega
  have initial : k.Intact h ∧ k.current.epoch ≤ u64Max := ⟨intact,by omega⟩
  have last : (Machine.final (step h aead) k calls).current.epoch =
      k.current.epoch + epochAdvances (Machine.trace (step h aead) k calls) :=
    Machine.counter_final (step h aead) (fun s => s.Intact h ∧ s.current.epoch ≤ u64Max)
      (fun s => s.current.epoch) preserved
      (fun s call inv => (step_epoch h aead s inv.1 inv.2 call).imp_right And.left) k calls initial
  have below := Machine.le_final_of_mem_trace (step h aead)
    (fun s => s.Intact h ∧ s.current.epoch ≤ u64Max) (fun s => s.current.epoch) preserved
    (fun s call inv => by have := step_epoch h aead s inv.1 inv.2 call; omega) k calls initial
  intro e member
  have := (below.2 e member).1
  omega

/-- The steps of a run that concern uniqueness: the session is not killed and its epoch
number can still move. -/
def Ordinary (k : SessionKeys) (call : Call) : Prop :=
  call ≠ .zeroizeAll ∧ k.current.epoch < u64Max

theorem run_ordinary (h : Hkdf) (aead : Aead) (k : SessionKeys) (intact : k.Intact h)
    (first : k.current.epoch = 0) (calls : List Call) (spared : .zeroizeAll ∉ calls)
    (few : epochAdvances (Machine.trace (step h aead) k calls) < u64Max) :
    ∀ e ∈ Machine.trace (step h aead) k calls, Ordinary e.before e.call := by
  intro e member
  refine ⟨fun killed => spared ?_,run_epoch h aead k intact first calls few e member⟩
  rw [← killed]
  exact Machine.mem_trace_call _ _ _ e member

theorem fromOutcome_epoch (h : Hkdf) (outcome : HandshakeOutcome) (now : Int) (k : SessionKeys)
    (created : fromOutcome h outcome now = .ok k) : k.current.epoch = 0 := by
  rw [fromOutcome_eq] at created
  cases created
  rfl

theorem trace_live (h : Hkdf) (aead : Aead) (k : SessionKeys) (live : k.Live h) (calls : List Call)
    (ordinary : ∀ e ∈ Machine.trace (SessionKeys.step h aead) k calls, Ordinary e.before e.call)
    (e : CallEvent) (member : e ∈ Machine.trace (SessionKeys.step h aead) k calls) :
    (e.before.Live h ∧ e.before.session = k.session ∧ e.before.role = k.role) ∧
      e = Machine.fire (SessionKeys.step h aead) e.before e.call := by
  refine Machine.trace_invariant _ Ordinary
    (fun s => s.Live h ∧ s.session = k.session ∧ s.role = k.role) ?_ k calls ⟨live,rfl,rfl⟩ ordinary e member
  rintro s call allowed ⟨live,session,role⟩
  obtain ⟨session',role'⟩ := step_fixed h aead s live call allowed.1
  exact ⟨step_live h aead s live call allowed.1,session'.trans session,role'.trans role⟩

end SessionKeys

end Streamhaul
