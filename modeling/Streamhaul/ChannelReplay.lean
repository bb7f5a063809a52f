import Streamhaul.ChannelLive

/-! At-most-once delivery. The replay windows of the current and the retained prior epoch
stand for the sequence numbers the run has accepted there; an epoch is derived only
when nothing of it was accepted yet, and a dropped epoch is never consulted again. -/
namespace Streamhaul

open RatchetChain

def openedHeader (e : CallEvent) : Option ChannelFrameHeader :=
  match e.call,e.response with
  | .openFrame _ _ frame,.opened (.ok _) =>
    (ChannelFrameHeader.parse (frame.take channelHeaderLen)).toOption
  | _,_ => none

def openedHeaders (events : List CallEvent) : List ChannelFrameHeader := events.filterMap openedHeader

namespace ChannelFrameHeader

def place (header : ChannelFrameHeader) : ChannelId × Nat × Nat :=
  (header.channel,header.epoch,header.seq)

end ChannelFrameHeader

theorem Direction.eq_of_ne {d d' send : Direction} (first : d ≠ send) (second : d' ≠ send) : d = d' := by
  cases d <;> cases d' <;> cases send <;> simp_all

def acceptedSeqs (headers : List ChannelFrameHeader) (c : ChannelId) (epoch : Nat) : Set Nat :=
  {s | (c,epoch,s) ∈ headers.map ChannelFrameHeader.place}

theorem acceptedSeqs_concat (headers : List ChannelFrameHeader) (x : ChannelFrameHeader) :
    acceptedSeqs (headers ++ [x]) x.channel x.epoch =
      insert x.seq (acceptedSeqs headers x.channel x.epoch) := by
  ext s
  simp [acceptedSeqs,ChannelFrameHeader.place,or_comm,eq_comm]

theorem acceptedSeqs_concat_other (headers : List ChannelFrameHeader) (x : ChannelFrameHeader)
    (c : ChannelId) (epoch : Nat) (apart : ¬(x.channel = c ∧ x.epoch = epoch)) :
    acceptedSeqs (headers ++ [x]) c epoch = acceptedSeqs headers c epoch := by
  ext s
  simp only [acceptedSeqs,List.map_append,List.mem_append,Set.mem_ofPred_eq,List.map_cons,List.map_nil,
    List.mem_singleton,ChannelFrameHeader.place,Prod.mk.injEq]
  constructor
  · rintro (old | ⟨channel,same,-⟩)
    · exact old
    · exact absurd ⟨channel.symm,same.symm⟩ apart
  · exact .inl

theorem acceptedSeqs_later (headers : List ChannelFrameHeader) (c : ChannelId) (epoch : Nat)
    (past : ∀ x ∈ headers, x.epoch < epoch) : acceptedSeqs headers c epoch = ∅ := by
  ext s
  simp only [acceptedSeqs,List.mem_map,Set.mem_ofPred_eq,Set.mem_empty_iff_false,iff_false,
    ChannelFrameHeader.place,Prod.mk.injEq]
  rintro ⟨x,member,-,same,-⟩
  apply absurd (past x member)
  omega

namespace EpochKeys

/-- The receiving windows of an epoch refine what the run has accepted in it. -/
def Windows (headers : List ChannelFrameHeader) (send : Direction) (e : EpochKeys) : Prop :=
  e.Slots (fun c d st => d ≠ send → st.replay.Refines (acceptedSeqs headers c e.epoch))

theorem freshEpoch_windows (h : Hkdf) (prk : Key) (headers : List ChannelFrameHeader) (send : Direction)
    (epoch : Nat) (now : Int) (past : ∀ x ∈ headers, x.epoch < epoch) :
    Windows headers send (freshEpoch h prk epoch now) := by
  apply slots_freshEpoch
  intro c d _
  change ReplayWindow.Refines _ (acceptedSeqs headers c epoch)
  rw [acceptedSeqs_later headers c epoch past]
  exact ReplayWindow.new_refines

variable {headers : List ChannelFrameHeader} {e : EpochKeys}

theorem Windows.admits_iff {send : Direction} (windows : Windows headers send e) {c : ChannelId} {d : Direction}
    {st : ChannelState}
    (found : e.get? c d = some st) (receiving : d ≠ send) (s : Nat) :
    st.replay.check s = .ok () ↔
      SlidingWindow.Admits replayWindow (acceptedSeqs headers c e.epoch) s :=
  ReplayWindow.check_ok_iff _ _ (windows.at found receiving) s

theorem Windows.accept {h : Hkdf} {base : Key} {send : Direction} (windows : Windows headers send e)
    {x : ChannelFrameHeader} {st : ChannelState}
    (found : e.get? x.channel x.direction = some st) (receiving : x.direction ≠ send)
    (epoch : x.epoch = e.epoch) :
    Windows (headers ++ [x]) send (e.set x.channel x.direction (st.accepted h base x)) := by
  intro c d
  by_cases same : c = x.channel ∧ d = x.direction
  · obtain ⟨rfl,rfl⟩ := same
    refine ⟨_,get?_set_self found _,fun _ => ?_⟩
    have accepted := ReplayWindow.accept_refines _ _ (windows.at found receiving) x.seq
    rw [← epoch,← acceptedSeqs_concat,epoch] at accepted
    exact accepted
  · obtain ⟨st',found',refines⟩ := windows c d
    refine ⟨st',by rw [get?_set_other e _ same,found'],fun other => ?_⟩
    have direction := Direction.eq_of_ne other receiving
    rw [set_epoch,acceptedSeqs_concat_other headers x c e.epoch
      (fun equal => same ⟨equal.1.symm,direction⟩)]
    exact refines other

theorem Windows.elsewhere {send : Direction} (windows : Windows headers send e) {x : ChannelFrameHeader}
    (epoch : x.epoch ≠ e.epoch) :
    Windows (headers ++ [x]) send e := by
  apply windows.imp
  intro c d st _ refines receiving
  rw [acceptedSeqs_concat_other headers x c e.epoch (fun equal => epoch equal.2)]
  exact refines receiving

theorem Windows.send {headers : List ChannelFrameHeader} {send : Direction} {e : EpochKeys}
    (windows : Windows headers send e) (c : ChannelId) (st : ChannelState) :
    Windows headers send (e.set c send st) :=
  Slots.set windows (fun receiving => absurd rfl receiving)

end EpochKeys

namespace SessionKeys

/-- What the opened headers say about the session that opened them. -/
structure OpenHistory (h : Hkdf) (headers : List ChannelFrameHeader) (k : SessionKeys) : Prop where
  live : k.Live h
  distinct : (headers.map ChannelFrameHeader.place).Nodup
  past : ∀ x ∈ headers, x.epoch ≤ k.current.epoch
  current : k.current.Windows headers k.sendDirection
  prior : ∀ p, k.prior = some p → p.epoch + 1 = k.current.epoch ∧ p.Windows headers k.sendDirection

variable {headers : List ChannelFrameHeader} {k : SessionKeys}

theorem distinct_concat {x : ChannelFrameHeader} (distinct : (headers.map ChannelFrameHeader.place).Nodup)
    (fresh : x.seq ∉ acceptedSeqs headers x.channel x.epoch) :
    ((headers ++ [x]).map ChannelFrameHeader.place).Nodup := by
  rw [List.map_append,List.map_cons,List.map_nil,List.nodup_append]
  refine ⟨distinct,List.nodup_singleton _,fun place member last single => ?_⟩
  cases List.mem_singleton.mp single
  rintro rfl
  exact fresh member

theorem openedHeader_addressed {channel : ChannelId} {frame : Bytes}
    {header : ChannelFrameHeader} (addressed : Addressed k channel frame header) (now : Int)
    (plaintext : Bytes) (after : SessionKeys) :
    openedHeader ⟨k,.openFrame now channel frame,.opened (.ok plaintext),after⟩ = some header := by
  simp only [openedHeader,addressed.parsed]
  rfl

theorem OpenHistory.openFrame {h : Hkdf}
    (history : OpenHistory h headers k) (aead : Aead) (bounded : k.current.epoch < u64Max) (now : Int)
    (channel : ChannelId) (frame : Bytes) :
    OpenHistory h (headers ++ (openedHeader
      (Machine.fire (step h aead) k (.openFrame now channel frame))).toList)
      (k.step h aead (.openFrame now channel frame)).2 := by
  have live := openFrame_live h aead k history.live now channel frame
  have outcome := openFrame_outcome h aead k history.live.intact now channel frame
  simp only [Machine.fire,step] at live ⊢
  generalize k.openFrame h aead now channel frame = result at outcome live ⊢
  cases outcome with
  | refused e => simpa [openedHeader] using history
  | current header st st' plaintext addressed epoch room found opened =>
    obtain ⟨opens,rfl⟩ := ChannelState.opened_inv (history.live.current.at found) opened
    have admits := (history.current.admits_iff found addressed.direction header.seq).mp opens.fresh
    rw [← epoch] at admits
    simp only [openedHeader_addressed addressed,Option.toList_some]
    refine ⟨live,distinct_concat history.distinct admits.1,?_,
      history.current.accept found addressed.direction epoch,?_⟩
    · exact Machine.forall_mem_concat history.past epoch.le
    · intro p retained
      obtain ⟨behind,windows⟩ := history.prior p retained
      exact ⟨behind,windows.elsewhere (by omega)⟩
  | prior header p st st' plaintext addressed epoch retained found opened =>
    obtain ⟨behind,windows⟩ := history.prior p retained
    have anchored := history.live.prior p retained
    obtain ⟨opens,rfl⟩ := ChannelState.opened_inv (anchored.at found) opened
    have same : header.epoch = p.epoch := by omega
    have admits := (windows.admits_iff found addressed.direction header.seq).mp opens.fresh
    rw [← same] at admits
    simp only [openedHeader_addressed addressed,Option.toList_some]
    refine ⟨live,distinct_concat history.distinct admits.1,?_,
      history.current.elsewhere (by omega),?_⟩
    · apply Machine.forall_mem_concat history.past
      omega
    · intro q kept
      cases kept
      exact ⟨behind,windows.accept found addressed.direction same⟩
  | next header st' plaintext addressed epoch opened =>
    have advance : header.epoch = k.current.epoch + 1 := epoch.trans (satAdd_of_le bounded)
    have later (x : ChannelFrameHeader) (member : x ∈ headers) : x.epoch < header.epoch := by
      have := history.past x member
      omega
    have fresh := EpochKeys.freshEpoch_windows h k.session.prk headers k.sendDirection header.epoch now later
    have found := EpochKeys.get?_freshEpoch h k.session.prk header.epoch now header.channel header.direction
    have anchored := EpochKeys.freshEpoch_anchored h k.session.prk header.epoch now
    obtain ⟨opens,rfl⟩ := ChannelState.opened_inv (anchored.at found) opened
    simp only [openedHeader_addressed addressed,Option.toList_some]
    refine ⟨live,distinct_concat history.distinct ?_,?_,
      fresh.accept found addressed.direction rfl,?_⟩
    · rw [acceptedSeqs_later headers header.channel header.epoch later]
      exact Set.notMem_empty _
    · exact Machine.forall_mem_concat (fun x member => (later x member).le) le_rfl
    · intro p retained
      cases retained
      exact ⟨advance.symm,history.current.elsewhere (by omega)⟩

theorem OpenHistory.sealFrame {h : Hkdf}
    (history : OpenHistory h headers k) (aead : Aead) (channel : ChannelId) (plaintext : Bytes) :
    OpenHistory h headers (k.sealFrame h aead channel plaintext).2 := by
  have live := sealFrame_live h aead k history.live channel plaintext
  have outcome := sealFrame_outcome h aead k history.live channel plaintext
  generalize k.sealFrame h aead channel plaintext = result at outcome live ⊢
  cases outcome with
  | exhausted => exact history
  | refused | emitted =>
    exact ⟨live,history.distinct,history.past,history.current.send channel _,history.prior⟩

theorem OpenHistory.rekey {h : Hkdf} {headers : List ChannelFrameHeader} {k : SessionKeys}
    (history : OpenHistory h headers k) (bounded : k.current.epoch < u64Max) (now : Int) :
    OpenHistory h headers (k.rekey h now).2 := by
  have live := rekey_live h k history.live now
  have advance : satAdd u64Max k.current.epoch 1 = k.current.epoch + 1 := satAdd_of_le bounded
  rw [rekey_eq,advance] at live ⊢
  have later (x : ChannelFrameHeader) (member : x ∈ headers) : x.epoch < k.current.epoch + 1 :=
    Nat.lt_succ_of_le (history.past x member)
  refine ⟨live,history.distinct,fun x member => (later x member).le,
    EpochKeys.freshEpoch_windows h _ headers _ _ now later,fun p retained => ?_⟩
  cases retained
  exact ⟨rfl,history.current⟩

theorem OpenHistory.step {h : Hkdf} {headers : List ChannelFrameHeader} {k : SessionKeys}
    (history : OpenHistory h headers k) (aead : Aead) (call : Call) (ordinary : Ordinary k call) :
    OpenHistory h (headers ++ (openedHeader (Machine.fire (step h aead) k call)).toList)
      (k.step h aead call).2 := by
  cases call with
  | sealFrame channel plaintext =>
    simpa [openedHeader,Machine.fire,SessionKeys.step] using history.sealFrame aead channel plaintext
  | openFrame now channel frame => exact history.openFrame aead ordinary.2 now channel frame
  | rekey now => simpa [openedHeader,Machine.fire,SessionKeys.step] using history.rekey ordinary.2 now
  | closeGracePeriod =>
    have live := step_live h aead k history.live .closeGracePeriod ordinary.1
    simp only [openedHeader,Machine.fire,Option.toList_none,List.append_nil]
    exact ⟨live,history.distinct,history.past,history.current,
      fun p kept => by simp [SessionKeys.step,closeGracePeriod] at kept⟩
  | zeroizeAll => exact absurd rfl ordinary.1

theorem openHistory_initial (h : Hkdf) (outcome : HandshakeOutcome) (now : Int) (k : SessionKeys)
    (created : fromOutcome h outcome now = .ok k) : OpenHistory h [] k := by
  have live := fromOutcome_live h outcome now k created
  rw [fromOutcome_eq] at created
  cases created
  exact ⟨live,List.nodup_nil,by simp,EpochKeys.freshEpoch_windows h _ [] _ 0 now (by simp),by simp⟩

theorem opened_identified (h : Hkdf) (aead : Aead) (k : SessionKeys) (live : k.Live h) (call : Call)
    (plaintext : Bytes)
    (succeeded : (Machine.fire (SessionKeys.step h aead) k call).response = .opened (.ok plaintext)) :
    (openedHeader (Machine.fire (SessionKeys.step h aead) k call)).isSome := by
  cases call with
  | openFrame now channel frame =>
    have outcome := openFrame_outcome h aead k live.intact now channel frame
    simp only [Machine.fire,SessionKeys.step] at succeeded ⊢
    generalize k.openFrame h aead now channel frame = result at outcome succeeded ⊢
    cases outcome with
    | refused => simp at succeeded
    | current _ _ _ _ addressed | prior _ _ _ _ _ addressed | next _ _ _ addressed =>
      rw [openedHeader_addressed addressed]
      rfl
  | sealFrame | rekey | closeGracePeriod | zeroizeAll =>
    simp [Machine.fire,SessionKeys.step] at succeeded

/-- At-most-once delivery over every run of a session: each opened frame names a channel,
an epoch and a sequence number, and no two name the same. -/
theorem opened_at_most_once (h : Hkdf) (aead : Aead) (outcome : HandshakeOutcome) (now : Int)
    (k : SessionKeys) (created : fromOutcome h outcome now = .ok k) (calls : List Call)
    (spared : .zeroizeAll ∉ calls)
    (few : epochAdvances (Machine.trace (SessionKeys.step h aead) k calls) < 2 ^ 64 - 1) :
    let events := Machine.trace (SessionKeys.step h aead) k calls
    (∀ e ∈ events, ∀ plaintext, e.response = .opened (.ok plaintext) → (openedHeader e).isSome) ∧
    ((openedHeaders events).map (fun x => (x.channel,x.epoch,x.seq))).Nodup := by
  intro events
  have live := fromOutcome_live h outcome now k created
  have ordinary := run_ordinary h aead k live.intact (fromOutcome_epoch h outcome now k created) calls
    spared few
  constructor
  · intro e member plaintext succeeded
    obtain ⟨⟨live,-⟩,fired⟩ := trace_live h aead k live calls ordinary e member
    rw [fired] at succeeded ⊢
    exact opened_identified h aead e.before live e.call plaintext succeeded
  · exact (Machine.history_invariant (SessionKeys.step h aead) openedHeader Ordinary (OpenHistory h)
      (fun headers s call allowed history => history.step aead call allowed) [] k calls
      (openHistory_initial h outcome now k created) ordinary).distinct

/-- One frame offered three times, the last time after a rekey. -/
theorem opened_at_most_once_replayed :
    let frame := ChannelFrameHeader.encode ⟨.control,.i2r,0,0,0⟩ ++ [1] ++
      (EpochKeys.baseKey Transparent.hkdf (Vector.replicate 32 7) .control .i2r 0).toList.take 16
    let calls : List Call := [.openFrame 0 .control frame,.openFrame 1 .control frame,.rekey 2,
      .openFrame 3 .control frame]
    let events := Machine.trace (SessionKeys.step Transparent.hkdf Transparent.aead)
      (Transparent.session .responder) calls
    openedHeaders events = [⟨.control,.i2r,0,0,0⟩] ∧
      ((openedHeaders events).map (fun x => (x.channel,x.epoch,x.seq))).Nodup :=
  ⟨rfl,(opened_at_most_once _ _ (Transparent.outcome .responder) 0 (Transparent.session .responder)
    (Transparent.session_created .responder) _ (by decide) (by decide)).2⟩

end SessionKeys

end Streamhaul
