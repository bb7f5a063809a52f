import Streamhaul.ChannelDelivery

/-! The last epoch number. There `saturating_add` makes the current epoch its own
successor: every frame of it is opened against freshly derived keys, which reach only
the first generations. -/
namespace Streamhaul

open RatchetChain

namespace SessionKeys

theorem rekeys_run (h : Hkdf) (aead : Aead) (k : SessionKeys) (live : k.Live h) (start : Int)
    (fresh : k.current = EpochKeys.freshEpoch h k.session.prk 0 start) (n : Nat) :
    ∃ k' now, Machine.final (step h aead) k (List.replicate n (.rekey 0)) = k' ∧ k'.Live h ∧
      k'.session = k.session ∧ k'.role = k.role ∧
      k'.current = EpochKeys.freshEpoch h k.session.prk (min n u64Max) now := by
  induction n with
  | zero => exact ⟨k,start,rfl,live,rfl,rfl,fresh⟩
  | succ n ih =>
    obtain ⟨k',now,reached,live',session,role,current⟩ := ih
    have epoch : k'.current.epoch = min n u64Max := congrArg EpochKeys.epoch current
    have run : Machine.final (step h aead) k (List.replicate (n + 1) (.rekey 0)) = (k'.rekey h 0).2 := by
      rw [List.replicate_succ',Machine.final_append,reached]
      rfl
    have next : satAdd u64Max k'.current.epoch 1 = min (n + 1) u64Max := by
      rw [epoch,satAdd]
      omega
    have keeps := rekey_live h k' live' 0
    rw [rekey_eq,next] at keeps
    rw [rekey_eq,next] at run
    exact ⟨_,0,run,keeps,session,role,by rw [session]⟩

theorem seals_sent (h : Hkdf) (aead : Aead) (k : SessionKeys) (live : k.Live h)
    (bounded : k.current.epoch ≤ u64Max) (channel : ChannelId) (st : ChannelState)
    (found : k.current.get? channel k.sendDirection = some st) (first : st.nextSeq = 0)
    (generation : st.sealGen = 0) (plaintext : Bytes) (accepts : aead.Accepts plaintext) (n : Nat)
    (within : n ≤ u32Max) (i : Nat) (inside : i < n) :
    let header : ChannelFrameHeader :=
      ⟨channel,k.sendDirection,k.current.epoch,i / ratchetInterval,i⟩
    ∃ s ∈ (Machine.trace (step h aead) k (List.replicate n (.sealFrame channel plaintext))).filterMap sentBy,
      s.plaintext = plaintext ∧
      ∃ ciphertext, Sealed h aead k.session.prk k.sendDirection s header ciphertext := by
  intro header
  obtain ⟨k',st',reached,live',session,role,-,epoch,found',seq,gen⟩ :=
    seals_run h aead k live channel st found first generation plaintext accepts i (by omega)
  have room : st'.nextSeq < seqHardLimit := by simp only [seqHardLimit,u32Max] at *; omega
  have bound : st'.sealGen < genHardLimit := by
    simp only [genHardLimit,u32Max,ratchetInterval] at *; omega
  have direction : k'.sendDirection = k.sendDirection := by simp only [sendDirection,role]
  have same : k'.sealHeader channel st' = header := by
    simp only [sealHeader,direction,epoch,seq,gen,header]
  obtain ⟨ciphertext,encrypted,emits⟩ := sealFrame_succeeds live' found' room bound accepts
  have fits := sealHeader_fits k' channel st' (by omega) bound room
  rw [same] at fits
  have split : List.replicate n (Call.sealFrame channel plaintext) =
      List.replicate i (.sealFrame channel plaintext) ++
        .sealFrame channel plaintext :: List.replicate (n - i - 1) (.sealFrame channel plaintext) := by
    rw [← List.replicate_succ,List.replicate_append_replicate]
    congr 1
    omega
  refine ⟨⟨plaintext,header.encode ++ ciphertext⟩,?_,rfl,ciphertext,fits,rfl,rfl,?_⟩
  · rw [split,Machine.trace_append,reached,List.filterMap_append]
    refine List.mem_append.mpr (.inr (List.mem_filterMap.mpr ⟨_,List.mem_cons_self,?_⟩))
    simp only [sentBy,Machine.fire,step,emits,same]
  · rw [same] at encrypted
    simp only [sendBase,session,direction,epoch,seq,gen] at encrypted
    exact encrypted

end SessionKeys

namespace Link

theorem final_atSender (h : Hkdf) (aead : Aead) (l : Link) (calls : List Call) :
    Machine.final (step h aead) l (calls.map .atSender) = { l with
      sender := Machine.final (SessionKeys.step h aead) l.sender calls
      sent := l.sent ++ (Machine.trace (SessionKeys.step h aead) l.sender calls).filterMap sentBy } := by
  induction calls generalizing l with
  | nil => simp [Machine.final,Machine.trace]
  | cons call rest ih =>
    rw [List.map_cons,Machine.final,ih,Machine.filterMap_trace_cons,← List.append_assoc]
    rfl

theorem final_atReceiver (h : Hkdf) (aead : Aead) (l : Link) (calls : List Call) :
    Machine.final (step h aead) l (calls.map .atReceiver) = { l with
      receiver := Machine.final (SessionKeys.step h aead) l.receiver calls
      accepted := l.accepted ++
        (Machine.trace (SessionKeys.step h aead) l.receiver calls).filterMap openedHeader } := by
  induction calls generalizing l with
  | nil => simp [Machine.final,Machine.trace]
  | cons call rest ih =>
    rw [List.map_cons,Machine.final,ih,Machine.filterMap_trace_cons,← List.append_assoc]
    rfl

theorem allowed_map {place : Call → LinkCall} {calls : List Call} {call : Call} (allowed : Allowed (place call))
    (same : ∀ c ∈ calls, c = call) : ∀ linkCall ∈ calls.map place, Allowed linkCall := by
  rw [List.forall_mem_map]
  intro c member
  rw [same c member]
  exact allowed

theorem rekeys_silent (h : Hkdf) (aead : Aead) (k : SessionKeys) (n : Nat) :
    (Machine.trace (SessionKeys.step h aead) k (List.replicate n (.rekey 0))).filterMap sentBy = [] ∧
    (Machine.trace (SessionKeys.step h aead) k (List.replicate n (.rekey 0))).filterMap openedHeader = [] := by
  induction n generalizing k with
  | zero => exact ⟨rfl,rfl⟩
  | succ n ih =>
    rw [List.replicate_succ,Machine.filterMap_trace_cons,Machine.filterMap_trace_cons,(ih _).1,(ih _).2]
    exact ⟨rfl,rfl⟩

theorem saturated_link (h : Hkdf) (aead : Aead) (sender receiver : SessionKeys) (live : sender.Live h)
    (live' : receiver.Live h) (start start' : Int)
    (fresh : sender.current = EpochKeys.freshEpoch h sender.session.prk 0 start)
    (fresh' : receiver.current = EpochKeys.freshEpoch h receiver.session.prk 0 start') :
    ∃ calls k k' now now', (∀ call ∈ calls, Allowed call) ∧
      Machine.final (step h aead) ⟨sender,receiver,[],[]⟩ calls = ⟨k,k',[],[]⟩ ∧
      k.Live h ∧ k'.Live h ∧ k.session = sender.session ∧ k'.session = receiver.session ∧
      k.role = sender.role ∧ k'.role = receiver.role ∧
      k.current = EpochKeys.freshEpoch h sender.session.prk u64Max now ∧
      k'.current = EpochKeys.freshEpoch h receiver.session.prk u64Max now' := by
  obtain ⟨k,now,reached,kLive,session,role,current⟩ :=
    SessionKeys.rekeys_run h aead sender live start fresh u64Max
  obtain ⟨k',now',reached',kLive',session',role',current'⟩ :=
    SessionKeys.rekeys_run h aead receiver live' start' fresh' u64Max
  rw [min_self] at current current'
  have sends := (rekeys_silent h aead sender u64Max).1
  have opens := (rekeys_silent h aead receiver u64Max).2
  have rekeys (call : Call) (member : call ∈ List.replicate u64Max (Call.rekey 0)) : call = .rekey 0 :=
    List.eq_of_mem_replicate member
  generalize List.replicate u64Max (Call.rekey 0) = calls at reached reached' sends opens rekeys
  refine ⟨calls.map .atSender ++ calls.map .atReceiver,k,k',now,now',?_,?_,kLive,kLive',session,session',
    role,role',current,current'⟩
  · rw [List.forall_mem_append]
    exact ⟨allowed_map (by simp [Allowed]) rekeys,allowed_map (by simp [Allowed]) rekeys⟩
  · rw [Machine.final_append,final_atSender,final_atReceiver,reached,sends]
    simp only [reached',opens,List.append_nil]

/-- Opening a frame of generation 2 at the last epoch number starts that epoch again. -/
theorem climbed_at_last_epoch (h : Hkdf) (aead : Aead) (correct : aead.Correct) (k : SessionKeys)
    (live : k.Live h) (last : k.current.epoch = u64Max) {direction : Direction} {s : Sent}
    {x : ChannelFrameHeader} {ciphertext : Bytes}
    (record : Sealed h aead k.session.prk direction s x ciphertext)
    (receiving : direction ≠ k.sendDirection) (epoch : x.epoch = u64Max)
    (generation : x.generation = genAheadLimit) (now : Int) :
    let k' := (k.openFrame h aead now x.channel s.frame).2
    openedHeader (Machine.fire (SessionKeys.step h aead) k (.openFrame now x.channel s.frame)) = some x ∧
    k'.Live h ∧ k'.current.epoch = u64Max ∧ k'.maxGenAt x.channel x.direction u64Max = genAheadLimit := by
  intro k'
  let base := EpochKeys.baseKey h k.session.prk x.channel x.direction x.epoch
  have addressed := record.addressed correct k receiving
  have opens := record.opens correct (ChannelState.new base) rfl (Nat.zero_le _)
    (by rw [generation]; exact Nat.le_add_left _ _)
  have next : x.epoch = satAdd u64Max k.current.epoch 1 := by
    rw [epoch,last]
    decide
  have opened := SessionKeys.openFrame_at_next addressed next
    (ChannelState.openFrame_opens (fromBaseKey_eq h _) opens) now
  have keeps := SessionKeys.openFrame_live h aead k live now x.channel s.frame
  refine ⟨?_,keeps,?_,?_⟩
  · simp only [Machine.fire,SessionKeys.step,opened]
    exact SessionKeys.openedHeader_addressed addressed now _ _
  · simp only [k',opened,EpochKeys.set_epoch]
    exact epoch
  · have slot : k'.receivingSlot x.channel x.direction u64Max =
        some ((ChannelState.new base).accepted h base x) := by
      simp only [k',opened,SessionKeys.receivingSlot,EpochKeys.set_epoch]
      exact (if_pos epoch.symm).trans (EpochKeys.get?_set_self (EpochKeys.get?_freshEpoch ..) _)
    simp only [SessionKeys.maxGenAt,slot]
    exact (Nat.zero_max _).trans generation

theorem generations_sent (h : Hkdf) (aead : Aead) (k : SessionKeys) (live : k.Live h) (prk : Key) {start : Int}
    (current : k.current = EpochKeys.freshEpoch h prk u64Max start) (accepts : aead.Accepts []) :
    ∃ seals, (∀ call ∈ seals, call = .sealFrame .control []) ∧
      ∀ generation ≤ 3, ∃ s ∈ (Machine.trace (SessionKeys.step h aead) k seals).filterMap sentBy, ∃ ciphertext,
        Sealed h aead k.session.prk k.sendDirection s
          ⟨.control,k.sendDirection,u64Max,generation,generation * ratchetInterval⟩ ciphertext := by
  have epoch : k.current.epoch = u64Max := congrArg EpochKeys.epoch current
  have found : k.current.get? .control k.sendDirection =
      some (.new (EpochKeys.baseKey h prk .control k.sendDirection u64Max)) := by
    rw [current]
    exact EpochKeys.get?_freshEpoch ..
  refine ⟨List.replicate (3 * ratchetInterval + 1) (.sealFrame .control []),
    fun call member => List.eq_of_mem_replicate member,fun generation within => ?_⟩
  have inside : generation * ratchetInterval < 3 * ratchetInterval + 1 :=
    Nat.lt_succ_of_le (Nat.mul_le_mul_right _ within)
  obtain ⟨s,sent,-,ciphertext,record⟩ := SessionKeys.seals_sent h aead k live epoch.le .control _ found rfl
    (by simp [ChannelState.sealGen,ChannelState.new,ChannelState.Due]) [] accepts
    (3 * ratchetInterval + 1) (by decide) (generation * ratchetInterval) inside
  rw [epoch,Nat.mul_div_cancel generation (by decide)] at record
  exact ⟨s,sent,ciphertext,record⟩

theorem last_epoch_refuses (h : Hkdf) (aead : Aead) (correct : aead.Correct) (accepts : aead.Accepts [])
    (transport : NoiseSession) (now now' : Int) (sender receiver : SessionKeys)
    (created : SessionKeys.fromOutcome h ⟨transport,.initiator⟩ now = .ok sender)
    (created' : SessionKeys.fromOutcome h ⟨transport,.responder⟩ now' = .ok receiver) :
    ∃ calls, (∀ call ∈ calls, Allowed call) ∧
      let l := Machine.final (step h aead) ⟨sender,receiver,[],[]⟩ calls
      ∃ s ∈ l.sent, ∃ x, ChannelFrameHeader.parse (s.frame.take channelHeaderLen) = .ok x ∧
        l.Deliverable x ∧ ∀ clock, ∃ e, (l.receiver.openFrame h aead clock x.channel s.frame).1 = .error e := by
  have live := SessionKeys.fromOutcome_live h _ now sender created
  have live' := SessionKeys.fromOutcome_live h _ now' receiver created'
  rw [SessionKeys.fromOutcome_eq] at created created'
  cases created
  cases created'
  obtain ⟨rekeys,k,k',start,start',rekeysAllowed,reached,kLive,kLive',session,session',role,role',
    current,current'⟩ := saturated_link h aead _ _ live live' now now' rfl rfl
  have epoch' : k'.current.epoch = u64Max := congrArg EpochKeys.epoch current'
  have direction : k.sendDirection = .i2r := by simp only [SessionKeys.sendDirection,role]
  have direction' : k'.sendDirection = .r2i := by simp only [SessionKeys.sendDirection,role']
  have root : k.session.prk = k'.session.prk := by rw [session,session']
  obtain ⟨seals,sealing,frames⟩ := generations_sent h aead k kLive _ current accepts
  obtain ⟨second,sent₂,ciphertext₂,record₂⟩ := frames 2 (by decide)
  obtain ⟨third,sent₃,ciphertext₃,record₃⟩ := frames 3 le_rfl
  rw [root,direction] at record₂ record₃
  obtain ⟨index,taken⟩ := List.mem_iff_getElem?.mp sent₂
  obtain ⟨opened,climbedLive,climbedEpoch,climbed⟩ := climbed_at_last_epoch h aead correct k' kLive' epoch'
    record₂ (by rw [direction']; decide) rfl (by decide) 0
  refine ⟨rekeys ++ seals.map .atSender ++ [.deliver 0 .control index],?_,?_⟩
  · refine Machine.forall_mem_concat ?_ trivial
    rw [List.forall_mem_append]
    exact ⟨rekeysAllowed,allowed_map (by simp [Allowed]) sealing⟩
  · intro l
    have state : l = ⟨Machine.final (SessionKeys.step h aead) k seals,
        (k'.openFrame h aead 0 .control second.frame).2,
        (Machine.trace (SessionKeys.step h aead) k seals).filterMap sentBy,
        [⟨.control,.i2r,u64Max,2,2 * ratchetInterval⟩]⟩ := by
      simp only [l,Machine.final_append,reached,final_atSender,Machine.final,step,
        List.nil_append,taken,receive]
      rw [opened]
      rfl
    rw [state]
    refine ⟨third,sent₃,_,record₃.parsed,⟨.inl climbedEpoch.symm,?_,?_,?_⟩,fun clock => ?_⟩
    · simp [acceptedSeqs,ChannelFrameHeader.place,ratchetInterval]
    · simp [acceptedSeqs,ChannelFrameHeader.place,ratchetInterval]
    · exact le_of_le_of_eq (by decide : 3 ≤ genAheadLimit + genAheadLimit)
        (congrArg (· + genAheadLimit) climbed.symm)
    · exact refused_at_last_epoch h aead _ climbedLive climbedEpoch .control third.frame _ record₃.parsed rfl
        (by decide) clock

/-- Two ends that have used up their epoch numbers. -/
theorem deliverable_frame_refused :
    ∃ calls, (∀ call ∈ calls, Allowed call) ∧
      let l := Machine.final (step Transparent.hkdf Transparent.aead)
        ⟨Transparent.session .initiator,Transparent.session .responder,[],[]⟩ calls
      ∃ s ∈ l.sent, ∃ x, ChannelFrameHeader.parse (s.frame.take channelHeaderLen) = .ok x ∧
        l.Deliverable x ∧ ∀ clock, ∃ e,
          (l.receiver.openFrame Transparent.hkdf Transparent.aead clock x.channel s.frame).1 = .error e :=
  last_epoch_refuses Transparent.hkdf Transparent.aead Transparent.aead_correct
    (Transparent.aead_accepts [] (by decide)) (Transparent.outcome .initiator).transport 0 0 _ _
    (Transparent.session_created .initiator) (Transparent.session_created .responder)

end Link

end Streamhaul
