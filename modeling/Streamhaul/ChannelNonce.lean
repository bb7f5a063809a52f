import Streamhaul.ChannelLive

/-! Nonce uniqueness. The headers emitted so far are ordered against the header each
sending slot emits next; a new epoch starts fresh slots, so the order never breaks. The
pace of one generation per interval is lost only when the cipher refuses a plaintext
just after the ratchet advanced. -/
namespace Streamhaul

open RatchetChain

def sealedHeader (e : CallEvent) : Option ChannelFrameHeader :=
  match e.response with
  | .sealed (.ok frame) => (ChannelFrameHeader.parse (frame.take channelHeaderLen)).toOption
  | _ => none

def sealedHeaders (events : List CallEvent) : List ChannelFrameHeader := events.filterMap sealedHeader

namespace ChannelFrameHeader

/-- The run of `RATCHET_INTERVAL` sequence numbers a header falls in. -/
def block (header : ChannelFrameHeader) : Nat := header.seq / ratchetInterval

/-- Order within one channel and epoch: sequence numbers grow, generations are constant
on a block and grow from block to block. -/
structure Precedes (a b : ChannelFrameHeader) : Prop where
  seq : a.seq < b.seq
  later : a.block < b.block → a.generation < b.generation
  same : a.block = b.block → a.generation = b.generation

theorem Precedes.trans {a b c : ChannelFrameHeader} (first : Precedes a b) (second : Precedes b c) :
    Precedes a c := by
  have ab : a.block ≤ b.block := Nat.div_le_div_right first.seq.le
  have bc : b.block ≤ c.block := Nat.div_le_div_right second.seq.le
  have := first.later
  have := first.same
  have := second.later
  have := second.same
  exact ⟨first.seq.trans second.seq,by omega,by omega⟩

/-- A derivation path for the key, and the nonce it is used with. -/
def keyAndNonce (header : ChannelFrameHeader) : (ChannelId × Direction × Nat × Nat) × Bytes :=
  ((header.channel,header.direction,header.epoch,header.generation),
    buildNonce header.generation header.seq)

end ChannelFrameHeader

open ChannelFrameHeader (Precedes)

namespace SessionKeys

theorem sealHeader_fits (k : SessionKeys) (channel : ChannelId) (st : ChannelState)
    (epoch : k.current.epoch ≤ u64Max) (bound : st.sealGen < genHardLimit)
    (room : st.nextSeq < seqHardLimit) : (k.sealHeader channel st).Fits := by
  constructor
  · exact epoch
  · simp only [sealHeader,genHardLimit,u32Max] at *; omega
  · simp only [sealHeader,seqHardLimit,u64Max] at *; omega

theorem sealedHeader_emitted (header : ChannelFrameHeader) (fits : header.Fits) (ciphertext : Bytes)
    (before after : SessionKeys) (call : Call) :
    sealedHeader ⟨before,call,.sealed (.ok (header.encode ++ ciphertext)),after⟩ = some header := by
  simp only [sealedHeader]
  rw [List.take_left' (ChannelFrameHeader.length_encode header),ChannelFrameHeader.parse_encode header fits]
  rfl

theorem emitted_sealGen (h : Hkdf) (base : Key) (st : ChannelState) :
    (st.emitted h base).sealGen =
      if (st.nextSeq + 1) % ratchetInterval = 0 then st.sealGen + 1 else st.sealGen := by
  simp [ChannelState.sealGen,ChannelState.emitted,ChannelState.ratcheted,ChannelState.Due]

theorem emitted_precedes (h : Hkdf) (base : Key) (k k' : SessionKeys) (c c' : ChannelId)
    (st : ChannelState) : Precedes (k.sealHeader c st) (k'.sealHeader c' (st.emitted h base)) := by
  have gen := emitted_sealGen h base st
  have next : (st.emitted h base).nextSeq = st.nextSeq + 1 := rfl
  by_cases boundary : (st.nextSeq + 1) % ratchetInterval = 0
  · rw [if_pos boundary] at gen
    constructor
    all_goals simp only [sealHeader,ChannelFrameHeader.block,gen,next,ratchetInterval] at *
    all_goals omega
  · rw [if_neg boundary] at gen
    refine ⟨?_,?_,fun _ => gen.symm⟩
    all_goals simp only [sealHeader,ChannelFrameHeader.block,gen,next,ratchetInterval] at *
    all_goals omega

/-- Advancing without emitting opens no gap that an earlier frame could fall in. -/
theorem ratcheted_precedes (h : Hkdf) (base : Key) (k : SessionKeys) (c : ChannelId) (st : ChannelState)
    (sending : st.Sending h base) (x : ChannelFrameHeader) (before : Precedes x (k.sealHeader c st))
    (k' : SessionKeys) : Precedes x (k'.sealHeader c (st.ratcheted h base)) := by
  have next : (st.ratcheted h base).nextSeq = st.nextSeq := rfl
  have gen : (st.ratcheted h base).sealGen = if st.Due then st.sealGen + 1 else st.sealGen := rfl
  have seq := before.seq
  have later := before.later
  have same := before.same
  simp only [sealHeader,ChannelFrameHeader.block] at seq later same
  by_cases due : st.Due
  · have boundary := due.2
    rw [sending.counters] at boundary
    constructor
    all_goals simp only [sealHeader,ChannelFrameHeader.block,gen,next,if_pos due,ratchetInterval] at *
    all_goals omega
  · constructor
    all_goals simp only [sealHeader,ChannelFrameHeader.block,gen,next,if_neg due]
    all_goals assumption

/-- What the emitted headers say about the session that emitted them. -/
structure SealHistory (h : Hkdf) (headers : List ChannelFrameHeader) (k : SessionKeys) : Prop where
  live : k.Live h
  ordered : headers.Pairwise (fun a b => a.channel = b.channel → a.epoch = b.epoch → Precedes a b)
  direction : ∀ x ∈ headers, x.direction = k.sendDirection
  past : ∀ x ∈ headers, x.epoch ≤ k.current.epoch
  slots : ∀ x ∈ headers, x.epoch = k.current.epoch →
    ∀ st, k.current.get? x.channel k.sendDirection = some st → Precedes x (k.sealHeader x.channel st)

/-- What any call but a seal does to the sending slots: they stay, or a new epoch
replaces them all with fresh ones. -/
inductive Quiet (k k' : SessionKeys) : Prop where
  | kept (epoch : k'.current.epoch = k.current.epoch)
      (slots : ∀ c, k'.current.get? c k.sendDirection = k.current.get? c k.sendDirection)
  | renewed (epoch : k'.current.epoch = k.current.epoch + 1)
      (slots : ∀ c st, k'.current.get? c k.sendDirection = some st → ∃ base, st = .new base)

theorem step_quiet (h : Hkdf) (aead : Aead) (k : SessionKeys) (live : k.Live h) (call : Call)
    (ordinary : Ordinary k call) (silent : ∀ c plaintext, call ≠ .sealFrame c plaintext) :
    sealedHeader (Machine.fire (step h aead) k call) = none ∧ Quiet k (k.step h aead call).2 := by
  have advance : satAdd u64Max k.current.epoch 1 = k.current.epoch + 1 := satAdd_of_le ordinary.2
  cases call with
  | sealFrame channel plaintext => exact absurd rfl (silent channel plaintext)
  | openFrame now channel frame =>
    have outcome := openFrame_outcome h aead k live.intact now channel frame
    simp only [Machine.fire,step]
    generalize k.openFrame h aead now channel frame = result at outcome ⊢
    refine ⟨rfl,?_⟩
    cases outcome with
    | refused | prior => exact .kept rfl (fun _ => rfl)
    | current header st st' plaintext addressed epoch room found opened =>
      refine .kept rfl (fun c => EpochKeys.get?_set_other _ _ ?_)
      exact fun same => addressed.direction same.2.symm
    | next header st' plaintext addressed epoch opened =>
      apply Quiet.renewed (epoch.trans advance)
      intro c st found
      have fresh := EpochKeys.get?_freshEpoch h k.session.prk header.epoch now c k.sendDirection
      rw [← EpochKeys.get?_set_other _ st' (fun same => addressed.direction same.2.symm)] at fresh
      exact ⟨_,Option.some.inj (found.symm.trans fresh)⟩
  | rekey now =>
    refine ⟨rfl,?_⟩
    simp only [step,rekey_eq]
    apply Quiet.renewed advance
    intro c st found
    exact ⟨_,Option.some.inj (found.symm.trans (EpochKeys.get?_freshEpoch ..))⟩
  | closeGracePeriod => exact ⟨rfl,.kept rfl (fun _ => rfl)⟩
  | zeroizeAll => exact absurd rfl ordinary.1

theorem SealHistory.quiet {h : Hkdf} {headers : List ChannelFrameHeader} {k k' : SessionKeys}
    (history : SealHistory h headers k) (live : k'.Live h) (role : k'.role = k.role)
    (quiet : Quiet k k') : SealHistory h headers k' := by
  have direction : k'.sendDirection = k.sendDirection := by simp only [sendDirection,role]
  have past (x : ChannelFrameHeader) (member : x ∈ headers) := history.past x member
  refine ⟨live,history.ordered,by rw [direction]; exact history.direction,?_,?_⟩
  · intro x member
    have := past x member
    cases quiet <;> omega
  · intro x member epoch st found
    have := past x member
    cases quiet with
    | renewed newer slots => omega
    | kept same slots =>
      rw [direction,slots] at found
      have before := history.slots x member (epoch.trans same) st found
      exact ⟨before.seq,before.later,before.same⟩

variable {k : SessionKeys} {h : Hkdf}

theorem SealHistory.sealFrame {headers : List ChannelFrameHeader}
    (history : SealHistory h headers k) (aead : Aead) (bounded : k.current.epoch < u64Max)
    (channel : ChannelId) (plaintext : Bytes) :
    SealHistory h (headers ++ (sealedHeader
      (Machine.fire (step h aead) k (.sealFrame channel plaintext))).toList)
      (k.step h aead (.sealFrame channel plaintext)).2 := by
  have live := step_live h aead k history.live (.sealFrame channel plaintext) (by simp)
  have outcome := sealFrame_outcome h aead k history.live channel plaintext
  simp only [Machine.fire,step] at live ⊢
  generalize k.sealFrame h aead channel plaintext = result at outcome live ⊢
  cases outcome with
  | exhausted => simpa [sealedHeader] using history
  | refused st found bound failed =>
    simp only [sealedHeader,Option.toList_none,List.append_nil]
    refine ⟨live,history.ordered,history.direction,history.past,fun x member epoch st' found' => ?_⟩
    rcases EpochKeys.get?_set_cases found found' with ⟨rfl,-,rfl⟩ | ⟨-,kept⟩
    · have sending := history.live.sending.at found rfl
      exact ratcheted_precedes h _ k _ st sending x (history.slots x member epoch st found) _
    · exact history.slots x member epoch st' kept
  | emitted st ciphertext found bound room encrypted =>
    have fits := sealHeader_fits k channel st bounded.le bound room
    simp only [sealedHeader_emitted _ fits,Option.toList_some]
    refine ⟨live,?_,?_,?_,?_⟩
    · refine List.pairwise_append.mpr ⟨history.ordered,List.pairwise_singleton _ _,?_⟩
      intro x member y last channels epochs
      cases List.mem_singleton.mp last
      subst channels
      exact history.slots x member epochs st found
    · exact Machine.forall_mem_concat history.direction rfl
    · exact Machine.forall_mem_concat history.past le_rfl
    · apply Machine.forall_mem_concat
      · intro x old epoch st' found'
        rcases EpochKeys.get?_set_cases found found' with ⟨rfl,-,rfl⟩ | ⟨-,kept⟩
        · exact (history.slots x old epoch st found).trans (emitted_precedes h _ k _ _ _ st)
        · exact history.slots x old epoch st' kept
      · intro _ st' found'
        rcases EpochKeys.get?_set_cases found found' with ⟨-,-,rfl⟩ | ⟨apart,-⟩
        · exact emitted_precedes h _ k _ _ _ st
        · exact absurd ⟨rfl,rfl⟩ apart

theorem SealHistory.step {h : Hkdf} {headers : List ChannelFrameHeader} {k : SessionKeys}
    (history : SealHistory h headers k) (aead : Aead) (call : Call) (ordinary : Ordinary k call) :
    SealHistory h (headers ++ (sealedHeader (Machine.fire (step h aead) k call)).toList)
      (k.step h aead call).2 := by
  have live := step_live h aead k history.live call ordinary.1
  have fixed := step_fixed h aead k history.live call ordinary.1
  cases call with
  | sealFrame channel plaintext => exact history.sealFrame aead ordinary.2 channel plaintext
  | openFrame | rekey | closeGracePeriod | zeroizeAll =>
    obtain ⟨silent,quiet⟩ := step_quiet h aead k history.live _ ordinary (by simp)
    rw [silent,Option.toList_none,List.append_nil]
    exact history.quiet live fixed.2 quiet

theorem sealHistory_run (h : Hkdf) (aead : Aead) (k : SessionKeys) (live : k.Live h) (calls : List Call)
    (ordinary : ∀ e ∈ Machine.trace (SessionKeys.step h aead) k calls, Ordinary e.before e.call) :
    SealHistory h (sealedHeaders (Machine.trace (SessionKeys.step h aead) k calls))
      (Machine.final (SessionKeys.step h aead) k calls) := by
  have initial : SealHistory h [] k := ⟨live,.nil,by simp,by simp,by simp⟩
  exact Machine.history_invariant (SessionKeys.step h aead) sealedHeader Ordinary (SealHistory h)
    (fun headers s call allowed history => history.step aead call allowed) [] k calls initial ordinary

/-- A seal that is about to ratchet gets a plaintext the cipher takes. -/
def Unrefused (aead : Aead) (k : SessionKeys) : Call → Prop
  | .sealFrame channel plaintext => ∀ st, k.current.get? channel k.sendDirection = some st →
      st.Due → aead.Accepts plaintext
  | _ => True

/-- One generation per interval, in the headers and at the slots. -/
structure SealPace (h : Hkdf) (headers : List ChannelFrameHeader) (k : SessionKeys) : Prop where
  live : k.Live h
  slots : ∀ c st, k.current.get? c k.sendDirection = some st →
    st.sealGen = st.nextSeq / ratchetInterval
  emitted : ∀ x ∈ headers, x.generation = x.seq / ratchetInterval

theorem emitted_pace (h : Hkdf) (base : Key) (st : ChannelState)
    (pace : st.sealGen = st.nextSeq / ratchetInterval) :
    (st.emitted h base).sealGen = (st.emitted h base).nextSeq / ratchetInterval := by
  have gen := emitted_sealGen h base st
  have next : (st.emitted h base).nextSeq = st.nextSeq + 1 := rfl
  rw [gen,next,pace]
  by_cases boundary : (st.nextSeq + 1) % ratchetInterval = 0
  · rw [if_pos boundary]
    simp only [ratchetInterval] at *
    omega
  · rw [if_neg boundary]
    simp only [ratchetInterval] at *
    omega

theorem SealPace.sealFrame {headers : List ChannelFrameHeader}
    (pace : SealPace h headers k) (aead : Aead) (bounded : k.current.epoch < u64Max)
    (channel : ChannelId) (plaintext : Bytes)
    (unrefused : Unrefused aead k (.sealFrame channel plaintext)) :
    SealPace h (headers ++ (sealedHeader
      (Machine.fire (step h aead) k (.sealFrame channel plaintext))).toList)
      (k.step h aead (.sealFrame channel plaintext)).2 := by
  have live := step_live h aead k pace.live (.sealFrame channel plaintext) (by simp)
  have outcome := sealFrame_outcome h aead k pace.live channel plaintext
  simp only [Machine.fire,step] at live ⊢
  generalize k.sealFrame h aead channel plaintext = result at outcome live ⊢
  cases outcome with
  | exhausted => simpa [sealedHeader] using pace
  | refused st found bound failed =>
    have early : ¬ st.Due := by
      intro due
      have taken := unrefused st found due (chainKey h (k.sendBase h channel) st.sealGen)
        (buildNonce st.sealGen st.nextSeq) (k.sealHeader channel st).aad
      rw [failed] at taken
      cases taken
    have unmoved : (st.ratcheted h (k.sendBase h channel)).sealGen = st.sealGen := by
      have gen : (st.ratcheted h (k.sendBase h channel)).sealGen =
        if st.Due then st.sealGen + 1 else st.sealGen := rfl
      rw [gen,if_neg early]
    simp only [sealedHeader,Option.toList_none,List.append_nil]
    refine ⟨live,fun c st' found' => ?_,pace.emitted⟩
    rcases EpochKeys.get?_set_cases found found' with ⟨rfl,-,rfl⟩ | ⟨-,kept⟩
    · exact unmoved.trans (pace.slots _ st found)
    · exact pace.slots c st' kept
  | emitted st ciphertext found bound room encrypted =>
    have fits := sealHeader_fits k channel st bounded.le bound room
    simp only [sealedHeader_emitted _ fits,Option.toList_some]
    refine ⟨live,fun c st' found' => ?_,?_⟩
    · rcases EpochKeys.get?_set_cases found found' with ⟨rfl,-,rfl⟩ | ⟨-,kept⟩
      · exact emitted_pace h _ st (pace.slots _ st found)
      · exact pace.slots c st' kept
    · exact Machine.forall_mem_concat pace.emitted (pace.slots channel st found)

theorem SealPace.step {h : Hkdf} {headers : List ChannelFrameHeader} {k : SessionKeys}
    (pace : SealPace h headers k) (aead : Aead) (call : Call) (ordinary : Ordinary k call)
    (unrefused : Unrefused aead k call) :
    SealPace h (headers ++ (sealedHeader (Machine.fire (step h aead) k call)).toList)
      (k.step h aead call).2 := by
  have live := step_live h aead k pace.live call ordinary.1
  have fixed := step_fixed h aead k pace.live call ordinary.1
  cases call with
  | sealFrame channel plaintext => exact pace.sealFrame aead ordinary.2 channel plaintext unrefused
  | openFrame | rekey | closeGracePeriod | zeroizeAll =>
    obtain ⟨silent,quiet⟩ := step_quiet h aead k pace.live _ ordinary (by simp)
    rw [silent,Option.toList_none,List.append_nil]
    refine ⟨live,fun c st found => ?_,pace.emitted⟩
    simp only [sendDirection,fixed.2] at found
    cases quiet with
    | kept epoch slots => exact pace.slots c st ((slots c).symm.trans found)
    | renewed epoch slots =>
      obtain ⟨base,rfl⟩ := slots c st found
      simp [ChannelState.sealGen,ChannelState.new,ChannelState.Due]

/-- The state of a fresh slot after `n` frames. -/
theorem seals_run (h : Hkdf) (aead : Aead) (k : SessionKeys) (live : k.Live h) (channel : ChannelId)
    (st : ChannelState) (found : k.current.get? channel k.sendDirection = some st)
    (first : st.nextSeq = 0) (generation : st.sealGen = 0) (plaintext : Bytes)
    (accepts : aead.Accepts plaintext) (n : Nat) (within : n ≤ u32Max) :
    ∃ k' st', Machine.final (SessionKeys.step h aead) k (List.replicate n (.sealFrame channel plaintext)) = k' ∧
      k'.Live h ∧ k'.session = k.session ∧ k'.role = k.role ∧ k'.prior = k.prior ∧
      k'.current.epoch = k.current.epoch ∧ k'.current.get? channel k'.sendDirection = some st' ∧
      st'.nextSeq = n ∧ st'.sealGen = n / ratchetInterval := by
  induction n with
  | zero => exact ⟨k,st,rfl,live,rfl,rfl,rfl,rfl,found,first,by rw [generation,Nat.zero_div]⟩
  | succ n ih =>
    obtain ⟨k',st',reached,live',session,role,prior,epoch,found',seq,gen⟩ := ih (by omega)
    have room : st'.nextSeq < seqHardLimit := by simp only [seqHardLimit,u32Max] at *; omega
    have bound : st'.sealGen < genHardLimit := by
      simp only [genHardLimit,u32Max,ratchetInterval] at *; omega
    obtain ⟨ciphertext,-,emits⟩ := sealFrame_succeeds live' found' room bound accepts
    have keeps := sealFrame_live h aead k' live' channel plaintext
    have run : Machine.final (SessionKeys.step h aead) k
        (List.replicate (n + 1) (.sealFrame channel plaintext)) =
          (k'.sealFrame h aead channel plaintext).2 := by
      rw [List.replicate_succ',Machine.final_append,reached]
      rfl
    rw [emits] at run keeps
    refine ⟨_,_,run,keeps,session,role,prior,epoch,EpochKeys.get?_set_self found' _,?_,?_⟩
    · exact congrArg (· + 1) seq
    · rw [← seq] at gen
      exact (emitted_pace h _ st' gen).trans (by rw [← seq]; rfl)

structure SealUse (h : Hkdf) (aead : Aead) (prk : Key) (direction : Direction) (e : CallEvent)
    (frame : Bytes) (header : ChannelFrameHeader) : Prop where
  emitted : sealedHeader e = some header
  direction : header.direction = direction
  encrypted : ∃ plaintext ciphertext, e.call = .sealFrame header.channel plaintext ∧
    frame = header.encode ++ ciphertext ∧
    aead.encrypt (chainKey h (EpochKeys.baseKey h prk header.channel header.direction header.epoch)
      header.generation) (buildNonce header.generation header.seq) header.aad plaintext = some ciphertext

theorem sealed_use (h : Hkdf) (aead : Aead) (k : SessionKeys) (live : k.Live h)
    (bounded : k.current.epoch ≤ u64Max) (call : Call) (frame : Bytes)
    (succeeded : (Machine.fire (SessionKeys.step h aead) k call).response = .sealed (.ok frame)) :
    ∃ header, header.Fits ∧ header.epoch = k.current.epoch ∧ SealUse h aead k.session.prk k.sendDirection
      (Machine.fire (SessionKeys.step h aead) k call) frame header := by
  cases call with
  | sealFrame channel plaintext =>
    have outcome := sealFrame_outcome h aead k live channel plaintext
    simp only [Machine.fire,SessionKeys.step] at succeeded ⊢
    generalize k.sealFrame h aead channel plaintext = result at outcome succeeded ⊢
    cases outcome with
    | exhausted | refused => simp at succeeded
    | emitted st ciphertext found bound room encrypted =>
      have fits := sealHeader_fits k channel st bounded bound room
      cases succeeded
      exact ⟨k.sealHeader channel st,fits,rfl,sealedHeader_emitted _ fits ciphertext _ _ _,rfl,
        plaintext,ciphertext,rfl,rfl,encrypted⟩
  | openFrame | rekey | closeGracePeriod | zeroizeAll =>
    simp [Machine.fire,SessionKeys.step] at succeeded

theorem sealedHeader_epoch (h : Hkdf) (aead : Aead) (k : SessionKeys) (live : k.Live h)
    (bounded : k.current.epoch ≤ u64Max) (call : Call) (x : ChannelFrameHeader)
    (emitted : sealedHeader (Machine.fire (SessionKeys.step h aead) k call) = some x) :
    x.epoch = k.current.epoch := by
  cases response : (Machine.fire (SessionKeys.step h aead) k call).response with
  | sealed r =>
    cases r with
    | error e => simp [sealedHeader,response] at emitted
    | ok frame =>
      obtain ⟨header,-,epoch,use⟩ := sealed_use h aead k live bounded call frame response
      cases emitted.symm.trans use.emitted
      exact epoch
  | opened | rekeyed | done => simp [sealedHeader,response] at emitted

/-- The order below the last epoch number survives any call, also once that number is
reached and rekeying starts the same epoch again. -/
theorem SealHistory.advance {h : Hkdf} {headers : List ChannelFrameHeader} {k : SessionKeys}
    (history : SealHistory h headers k) (low : ∀ x ∈ headers, x.epoch < u64Max)
    (bounded : k.current.epoch ≤ u64Max) (aead : Aead) (call : Call) (spared : call ≠ .zeroizeAll) :
    SealHistory h (headers ++ (sealedHeader (Machine.fire (SessionKeys.step h aead) k call)).toList.filter
      (fun x => x.epoch < u64Max)) (k.step h aead call).2 := by
  have epochs := sealedHeader_epoch h aead k history.live bounded call
  rcases bounded.lt_or_eq with below | saturated
  · have kept : (sealedHeader (Machine.fire (SessionKeys.step h aead) k call)).toList.filter
        (fun x => x.epoch < u64Max) =
          (sealedHeader (Machine.fire (SessionKeys.step h aead) k call)).toList := by
      apply List.filter_eq_self.mpr
      intro x member
      apply decide_eq_true
      rw [epochs x (Option.mem_toList.mp member)]
      exact below
    rw [kept]
    exact history.step aead call ⟨spared,below⟩
  · have dropped : (sealedHeader (Machine.fire (SessionKeys.step h aead) k call)).toList.filter
        (fun x => x.epoch < u64Max) = [] := by
      apply List.filter_eq_nil_iff.mpr
      intro x member
      rw [epochs x (Option.mem_toList.mp member),saturated]
      simp
    have stays := step_epoch h aead k history.live.intact bounded call
    have role := (step_fixed h aead k history.live call spared).2
    have direction : (k.step h aead call).2.sendDirection = k.sendDirection := by
      simp only [sendDirection,role]
    rw [dropped,List.append_nil]
    refine ⟨step_live h aead k history.live call spared,history.ordered,?_,?_,?_⟩
    · rw [direction]
      exact history.direction
    · intro x member
      have := history.past x member
      omega
    · intro x member epoch
      have := low x member
      omega

theorem Precedes.keyAndNonce_ne {a b : ChannelFrameHeader} (fitsA : a.Fits) (fitsB : b.Fits)
    (precedes : a.channel = b.channel → a.epoch = b.epoch → Precedes a b) :
    a.keyAndNonce ≠ b.keyAndNonce := by
  intro same
  simp only [ChannelFrameHeader.keyAndNonce,Prod.mk.injEq] at same
  obtain ⟨⟨channel,-,epoch,-⟩,nonce⟩ := same
  have seq := (buildNonce_injective fitsA.generation fitsB.generation fitsA.seq fitsB.seq nonce).2
  have := (precedes channel epoch).seq
  omega

theorem sealedHeaders_fit (events : List CallEvent) : ∀ x ∈ sealedHeaders events, x.Fits := by
  intro x member
  obtain ⟨e,-,emitted⟩ := List.mem_filterMap.mp member
  unfold sealedHeader at emitted
  split at emitted
  · rename_i frame response
    cases parsed : ChannelFrameHeader.parse (frame.take channelHeaderLen) with
    | error e => simp [parsed,Except.toOption] at emitted
    | ok header =>
      simp only [parsed,Except.toOption,Option.some.injEq] at emitted
      subst emitted
      exact ChannelFrameHeader.parse_fits parsed
  · cases emitted

/-- Nonce uniqueness over every run of a session. No header, no sequence number of a
channel and epoch, and no pair of key and nonce is used twice; and if no seal that is due
to ratchet gets a plaintext the cipher refuses, generations follow the interval. -/
theorem sealed_nonces_unique (h : Hkdf) (aead : Aead) (outcome : HandshakeOutcome) (now : Int)
    (k : SessionKeys) (created : fromOutcome h outcome now = .ok k) (calls : List Call)
    (spared : .zeroizeAll ∉ calls)
    (few : epochAdvances (Machine.trace (SessionKeys.step h aead) k calls) < 2 ^ 64 - 1) :
    let events := Machine.trace (SessionKeys.step h aead) k calls
    (∀ e ∈ events, ∀ frame, e.response = .sealed (.ok frame) →
      ∃ header, SealUse h aead k.session.prk k.sendDirection e frame header) ∧
    (sealedHeaders events).Nodup ∧
    (sealedHeaders events).Pairwise (fun a b =>
      a.channel = b.channel → a.epoch = b.epoch → a.seq ≠ b.seq) ∧
    ((sealedHeaders events).map ChannelFrameHeader.keyAndNonce).Nodup ∧
    ((∀ e ∈ events, Unrefused aead e.before e.call) →
      ∀ x ∈ sealedHeaders events, x.generation = x.seq / ratchetInterval) := by
  intro events
  have live := fromOutcome_live h outcome now k created
  have ordinary := run_ordinary h aead k live.intact (fromOutcome_epoch h outcome now k created) calls
    spared few
  have history := sealHistory_run h aead k live calls ordinary
  have fits := sealedHeaders_fit events
  refine ⟨?_,?_,?_,?_,?_⟩
  · intro e member frame succeeded
    obtain ⟨⟨live,session,role⟩,fired⟩ := trace_live h aead k live calls ordinary e member
    rw [fired] at succeeded
    obtain ⟨header,-,-,use⟩ :=
      sealed_use h aead e.before live (ordinary e member).2.le e.call frame succeeded
    rw [← fired,session] at use
    simp only [sendDirection,role] at use
    exact ⟨header,use⟩
  · apply history.ordered.imp
    intro a b precedes same
    subst same
    exact absurd (precedes rfl rfl).seq (lt_irrefl _)
  · exact history.ordered.imp (fun precedes channel epoch => (precedes channel epoch).seq.ne)
  · apply List.pairwise_map.mpr
    apply history.ordered.imp_of_mem
    intro a b left right precedes
    exact Precedes.keyAndNonce_ne (fits a left) (fits b right) precedes
  · intro unrefused
    have initial : SealPace h [] k := by
      refine ⟨live,fun c st found => ?_,by simp⟩
      rw [fromOutcome_eq] at created
      cases created
      cases (EpochKeys.get?_freshEpoch ..).symm.trans found
      simp [ChannelState.sealGen,ChannelState.new,ChannelState.Due]
    have pace := Machine.history_invariant (SessionKeys.step h aead) sealedHeader
      (fun s call => Ordinary s call ∧ Unrefused aead s call) (SealPace h)
      (fun headers s call allowed pace => pace.step aead call allowed.1 allowed.2) [] k calls initial
      (fun e member => ⟨ordinary e member,unrefused e member⟩)
    exact pace.emitted

/-- Two frames around a rekey, neither of which the cipher refuses. -/
theorem sealed_nonces_unique_rekey :
    let calls : List Call := [.sealFrame .control [1],.rekey 5,.sealFrame .control [2]]
    let events := Machine.trace (SessionKeys.step Transparent.hkdf Transparent.aead)
      (Transparent.session .initiator) calls
    sealedHeaders events = [⟨.control,.i2r,0,0,0⟩,⟨.control,.i2r,1,0,0⟩] ∧
      ((sealedHeaders events).map ChannelFrameHeader.keyAndNonce).Nodup ∧
      ∀ x ∈ sealedHeaders events, x.generation = x.seq / ratchetInterval := by
  intro calls events
  have unique := sealed_nonces_unique Transparent.hkdf Transparent.aead (Transparent.outcome .initiator) 0
    (Transparent.session .initiator) (Transparent.session_created .initiator) calls (by decide) (by decide)
  refine ⟨rfl,unique.2.2.2.1,unique.2.2.2.2 ?_⟩
  intro e member
  have called := Machine.mem_trace_call _ _ _ e member
  simp only [calls,List.mem_cons,List.not_mem_nil,or_false] at called
  rcases called with here | here | here <;> rw [here]
  · exact fun st _ _ => Transparent.aead_accepts [1] (by decide)
  · trivial
  · exact fun st _ _ => Transparent.aead_accepts [2] (by decide)

theorem sealedHeader_succeeds {aead : Aead} (live : k.Live h)
    (bounded : k.current.epoch ≤ u64Max) {channel : ChannelId} {plaintext : Bytes} {st : ChannelState}
    (found : k.current.get? channel k.sendDirection = some st) (room : st.nextSeq < seqHardLimit)
    (bound : st.sealGen < genHardLimit) (accepts : aead.Accepts plaintext) :
    sealedHeader (Machine.fire (SessionKeys.step h aead) k (.sealFrame channel plaintext)) =
      some (k.sealHeader channel st) := by
  obtain ⟨ciphertext,-,emits⟩ := sealFrame_succeeds live found room bound accepts
  simp only [Machine.fire,SessionKeys.step,emits]
  exact sealedHeader_emitted _ (sealHeader_fits k channel st bounded bound room) ciphertext _ _ _

/-- A refusal at a slot that is due moves its generation and emits nothing. -/
theorem refusal_advances {aead : Aead} (live : k.Live h) {channel : ChannelId} {plaintext : Bytes} {st : ChannelState}
    (found : k.current.get? channel k.sendDirection = some st) (room : st.nextSeq < seqHardLimit)
    (bound : st.sealGen < genHardLimit) (due : st.Due)
    (refuses : ∀ key nonce aad, aead.encrypt key nonce aad plaintext = none) :
    ∃ k' st', (k.sealFrame h aead channel plaintext).2 = k' ∧ k'.Live h ∧ k'.role = k.role ∧
      k'.current.epoch = k.current.epoch ∧ k'.current.get? channel k'.sendDirection = some st' ∧
      st'.nextSeq = st.nextSeq ∧ st'.sealGen = st.sealGen + 1 := by
  have refusal := sealFrame_refused live found room bound refuses
  have keeps := sealFrame_live h aead k live channel plaintext
  rw [refusal] at keeps ⊢
  have advanced : (st.ratcheted h (k.sendBase h channel)).sealGen =
    if st.Due then st.sealGen + 1 else st.sealGen := rfl
  rw [if_pos due] at advanced
  exact ⟨_,_,rfl,keeps,rfl,rfl,EpochKeys.get?_set_self found _,rfl,advanced⟩

/-- Where the pace breaks: a refused plaintext at the interval boundary keeps its ratchet
advance, and the next seal advances once more. -/
theorem generation_skipped (h : Hkdf) (aead : Aead) (outcome : HandshakeOutcome) (now : Int)
    (k : SessionKeys) (created : fromOutcome h outcome now = .ok k) (channel : ChannelId)
    (small large : Bytes) (accepts : aead.Accepts small)
    (refuses : ∀ key nonce aad, aead.encrypt key nonce aad large = none) :
    ⟨channel,k.sendDirection,0,2,ratchetInterval⟩ ∈ sealedHeaders
      (Machine.trace (SessionKeys.step h aead) k (List.replicate ratchetInterval (.sealFrame channel small) ++
        [.sealFrame channel large,.sealFrame channel small])) := by
  have live := fromOutcome_live h outcome now k created
  have zero := fromOutcome_epoch h outcome now k created
  have fresh : k.current.get? channel k.sendDirection =
      some (.new (EpochKeys.baseKey h k.session.prk channel k.sendDirection 0)) := by
    rw [fromOutcome_eq] at created
    cases created
    exact EpochKeys.get?_freshEpoch ..
  obtain ⟨k₁,st,reached,live₁,-,role,-,epoch,found,seq,gen⟩ := seals_run h aead k live channel _ fresh
    rfl (by simp [ChannelState.sealGen,ChannelState.new,ChannelState.Due]) small accepts ratchetInterval
    (by decide)
  have due : st.Due := by
    have counters := (live₁.sending.at found rfl).counters
    rw [ChannelState.Due,counters,seq]
    decide
  have one : st.sealGen = 1 := gen.trans (by decide)
  obtain ⟨k₂,st₂,after,live₂,role₂,epoch₂,found₂,seq₂,gen₂⟩ :=
    refusal_advances live₁ found (by rw [seq]; decide) (by rw [one]; decide) due refuses
  rw [seq] at seq₂
  rw [one] at gen₂
  have emitted := sealedHeader_succeeds live₂ (by omega) found₂ (by rw [seq₂]; decide)
    (by rw [gen₂]; decide) accepts
  have header : k₂.sealHeader channel st₂ = ⟨channel,k.sendDirection,0,2,ratchetInterval⟩ := by
    simp only [sealHeader,sendDirection,role₂,role,epoch₂,epoch,zero,seq₂,gen₂]
  rw [header,← after] at emitted
  rw [Machine.trace_append,reached,sealedHeaders,List.filterMap_append]
  exact List.mem_append.mpr (.inr (List.mem_filterMap.mpr
    ⟨_,List.mem_cons_of_mem _ List.mem_cons_self,emitted⟩))

/-- With a message of `2^32 - 1` blocks at the boundary, sequence number 16384 is sealed
under generation 2. -/
theorem generation_off_pace :
    let large : Bytes := List.replicate (64 * u32Max) 0
    let calls : List Call := List.replicate ratchetInterval (.sealFrame .control []) ++
      [.sealFrame .control large,.sealFrame .control []]
    let events := Machine.trace (SessionKeys.step Transparent.hkdf Transparent.aead)
      (Transparent.session .initiator) calls
    .zeroizeAll ∉ calls ∧ epochAdvances events < 2 ^ 64 - 1 ∧
    ∃ x ∈ sealedHeaders events, x.generation = 2 ∧ x.seq / ratchetInterval = 1 := by
  intro large calls events
  have refuses (key : Key) (nonce aad : Bytes) : Transparent.aead.encrypt key nonce aad large = none := by
    simp [Transparent.aead,large]
  have few : epochAdvances events ≤ ratchetInterval + 2 :=
    List.countP_le_length.trans (by simp [events,calls])
  refine ⟨by simp [calls],few.trans_lt (by decide),_,generation_skipped _ _ (Transparent.outcome .initiator) 0 _
    (Transparent.session_created .initiator) .control [] large
    (Transparent.aead_accepts [] (by decide)) refuses,rfl,rfl⟩

end SessionKeys

end Streamhaul
