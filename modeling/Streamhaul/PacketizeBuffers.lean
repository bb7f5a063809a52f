import Streamhaul.PacketizeFrames

/-! What the reassembler buffers when it is fed arbitrary datagrams: never too many frames, and
in each only fragments that came in since its buffer was created. -/
namespace Streamhaul

theorem AssocMap.size_erase_lt {κ α : Type} [DecidableEq κ] {m : AssocMap κ α} {k : κ} {v : α}
    (found : m.get? k = some v) : (m.erase k).size < m.size := by
  apply List.length_filter_lt_length_iff_exists.mpr
  exact ⟨(k,v),AssocMap.lookup_mem found,by simp⟩

namespace Reassembler

open Machine

section Ingest

variable {r : Reassembler} {datagram : Bytes} {common : CommonHeader} {video : VideoHeader}

theorem size_makeRoom {buffers : AssocMap Nat FrameBuffer} {key : Nat} (few : buffers.size ≤ maxBufferedFrames) :
    (makeRoom buffers key).contains key = true ∧ (makeRoom buffers key).size ≤ maxBufferedFrames ∨
      (makeRoom buffers key).contains key = false ∧ (makeRoom buffers key).size < maxBufferedFrames := by
  rw [AssocMap.contains,get?_makeRoom,← AssocMap.contains]
  cases known : buffers.contains key with
  | true =>
    rw [makeRoom_known known]
    exact .inl ⟨rfl,few⟩
  | false =>
    refine .inr ⟨rfl,?_⟩
    unfold makeRoom
    split
    · next crowded =>
      cases oldest : (buffers.entries.map Prod.fst).min? with
      | none =>
        have empty := List.length_eq_zero_iff.mpr (List.min?_eq_none_iff.mp oldest)
        rw [List.length_map] at empty
        exact absurd crowded.2 (by rw [AssocMap.size,empty]; decide)
      | some key' =>
        obtain ⟨buf,held⟩ := Option.isSome_iff_exists.mp ((buffers.contains_iff key').mpr (List.min?_mem oldest))
        exact (AssocMap.size_erase_lt held).trans_le few
    · next room => exact Nat.not_le.mp (fun full => room ⟨known,full⟩)

theorem size_entry {buffers : AssocMap Nat FrameBuffer} {key : Nat} (few : buffers.size ≤ maxBufferedFrames)
    (fresh : FrameBuffer) : (entry (makeRoom buffers key) key fresh).2.size ≤ maxBufferedFrames := by
  have room := @size_makeRoom buffers key few
  unfold entry
  cases found : (makeRoom buffers key).get? key with
  | some buf => exact room.elim And.right (fun free => free.2.le)
  | none =>
    have absent : (makeRoom buffers key).contains key = false := by rw [AssocMap.contains,found]; rfl
    dsimp only
    rw [AssocMap.size_insert,absent,if_neg Bool.false_ne_true]
    rcases room with ⟨known,-⟩ | ⟨-,free⟩
    · rw [absent] at known
      cases known
    · exact free

theorem size_ingest (few : r.buffers.size ≤ maxBufferedFrames) (datagram : Bytes) :
    (r.ingest datagram).2.buffers.size ≤ maxBufferedFrames := by
  cases headers : videoFragment datagram with
  | none =>
    rw [ingest,headers]
    exact few
  | some pair =>
    obtain ⟨common,video⟩ := pair
    have room := @size_entry r.buffers (frameKey video) few (FrameBuffer.new common video)
    obtain ⟨-,held⟩ := entry_eq (makeRoom r.buffers (frameKey video)) (frameKey video) (FrameBuffer.new common video)
    simp only [ingest,headers]
    split
    · exact room
    · split
      · exact (AssocMap.size_erase_le _ _).trans room
      · rw [AssocMap.size_insert,AssocMap.contains,held,Option.isSome_some,if_pos rfl]
        exact room

end Ingest

/-- The datagrams since the buffer of a frame was created, the creating one included: before
them there was none, and there is one after each of them. -/
inductive Since (key : Nat) (feed span : List Bytes) : Prop
  | intro (before : List Bytes) (whole : feed = before ++ span)
      (absent : (final ingest new before).buffers.get? key = none)
      (present : ∀ first rest, first ≠ [] → span = first ++ rest →
        (final ingest new (before ++ first)).buffers.contains key = true)

theorem Since.absent {key : Nat} {feed : List Bytes} (none : (final ingest new feed).buffers.get? key = none) :
    Since key feed [] := by
  refine .intro feed (List.append_nil feed).symm none (fun first rest nonempty split => ?_)
  exact absurd (List.append_eq_nil_iff.mp split.symm).1 nonempty

theorem Since.concat {key : Nat} {feed span : List Bytes} {datagram : Bytes} (since : Since key feed span)
    (kept : (final ingest new (feed ++ [datagram])).buffers.contains key = true) :
    Since key (feed ++ [datagram]) (span ++ [datagram]) := by
  obtain ⟨before,rfl,absent,present⟩ := since
  refine .intro before (List.append_assoc _ _ _) absent (fun first rest nonempty split => ?_)
  rcases List.eq_nil_or_concat' rest with rfl | ⟨rest',last,rfl⟩
  · rw [List.append_nil] at split
    rw [← split,← List.append_assoc]
    exact kept
  · rw [← List.append_assoc] at split
    exact present first rest' nonempty (List.append_inj_left' split rfl)

/-- The datagram brings the bytes of a fragment behind its two headers. -/
def Brings (key : Nat) (total : UInt8) (i : Nat) (chunk datagram : Bytes) : Prop :=
  ∃ common video, videoFragment datagram = some (common,video) ∧ frameKey video = key ∧ video.totalFrags = total ∧
    video.fragIndex.toNat = i ∧ chunk = datagram.drop combinedHeader

/-- A buffer whose filled slots are counted and came in with the datagrams of a span. -/
structure Filled (key : Nat) (span : List Bytes) (buf : FrameBuffer) : Prop where
  slots : buf.slots.length = buf.totalFrags.toNat
  positive : 1 ≤ buf.totalFrags.toNat
  received : buf.received = buf.slots.countP Option.isSome
  brought : ∀ (i : Nat) (chunk : Bytes), buf.slots[i]? = some (some chunk) →
    ∃ datagram ∈ span, Brings key buf.totalFrags i chunk datagram

section Filled

variable {key : Nat} {span : List Bytes} {buf : FrameBuffer} {datagram : Bytes} {common : CommonHeader} {video : VideoHeader}

theorem Filled.later (filled : Filled key span buf) (datagram : Bytes) : Filled key (span ++ [datagram]) buf where
  slots := filled.slots
  positive := filled.positive
  received := filled.received
  brought i chunk here := by
    obtain ⟨source,member,brings⟩ := filled.brought i chunk here
    exact ⟨source,List.mem_append_left _ member,brings⟩

theorem totalFrags_pos (headers : videoFragment datagram = some (common,video)) : 1 ≤ video.totalFrags.toNat := by
  have nonzero : video.totalFrags ≠ 0 := by
    intro zero
    unfold videoFragment at headers
    split at headers
    · cases headers
    split at headers
    · cases headers
    split at headers
    · cases headers
    split at headers
    · cases headers
    next other =>
    split at headers
    · cases headers
    cases headers
    exact other zero
  exact Nat.pos_of_ne_zero (fun zero => nonzero (UInt8.toNat_inj.mp zero))

theorem Filled.new (headers : videoFragment datagram = some (common,video)) :
    Filled key span (FrameBuffer.new common video) where
  slots := List.length_replicate
  positive := totalFrags_pos headers
  received := by simp [FrameBuffer.new,List.countP_replicate]
  brought i chunk here := by
    rw [FrameBuffer.new,List.getElem?_replicate] at here
    split at here <;> cases here

theorem Filled.store {buf' : FrameBuffer} (filled : Filled key span buf) (missing : buf.received < buf.totalFrags.toNat)
    (headers : videoFragment datagram = some (common,video)) (own : frameKey video = key)
    (stored : buf.store video datagram = some buf') : Filled key (span ++ [datagram]) buf' := by
  obtain ⟨total,empty,rfl⟩ := FrameBuffer.store_spec stored
  obtain ⟨bound,free⟩ := List.getElem?_eq_some_iff.mp empty
  have small := buf.totalFrags.toNat_lt
  refine ⟨?_,filled.positive,?_,fun i chunk here => ?_⟩
  · rw [List.length_set]
    exact filled.slots
  · have counted : satAdd u64Max buf.received 1 = buf.received + 1 := by
      simp only [satAdd,u64Max]
      omega
    rw [counted,List.countP_set bound,free,filled.received]
    rfl
  · by_cases here' : video.fragIndex.toNat = i
    · subst here'
      rw [List.getElem?_set_self bound] at here
      cases here
      exact ⟨datagram,List.mem_append_right _ (List.mem_singleton.mpr rfl),common,video,headers,own,total,rfl,rfl⟩
    · rw [List.getElem?_set_ne here'] at here
      obtain ⟨source,member,brings⟩ := filled.brought i chunk here
      exact ⟨source,List.mem_append_left _ member,brings⟩

theorem map_some_reduceOption {α : Type} {l : List (Option α)} (all : ∀ slot ∈ l, slot.isSome = true) :
    l.reduceOption.map some = l := by
  induction l with
  | nil => rfl
  | cons slot rest ih =>
    rw [List.forall_mem_cons] at all
    obtain ⟨x,rfl⟩ := Option.isSome_iff_exists.mp all.1
    exact congrArg (some x :: ·) (ih all.2)

theorem Filled.full (filled : Filled key span buf) (full : buf.received = buf.totalFrags.toNat) :
    ∃ chunks : List Bytes, chunks.length = buf.totalFrags.toNat ∧ buf.packet.data = chunks.flatten ∧
      ∀ (i : Nat) (chunk : Bytes), chunks[i]? = some chunk →
        ∃ datagram ∈ span, Brings key buf.totalFrags i chunk datagram := by
  have all : ∀ slot ∈ buf.slots, slot.isSome = true := by
    rw [← List.countP_eq_length,← filled.received,full,filled.slots]
  have slots := map_some_reduceOption all
  refine ⟨buf.slots.reduceOption,?_,rfl,fun i chunk here => filled.brought i chunk ?_⟩
  · rw [← filled.slots,← List.length_map some,slots]
  · rw [← slots,List.getElem?_map,here]
    rfl

end Filled

/-- What holds of the buffers when datagrams have been fed. -/
structure Sound (feed : List Bytes) : Prop where
  few : (final ingest new feed).buffers.size ≤ maxBufferedFrames
  buffered : ∀ key buf, (final ingest new feed).buffers.get? key = some buf →
    ∃ span, Since key feed span ∧ Filled key span buf ∧ buf.received < buf.totalFrags.toNat

section Step

variable {feed : List Bytes} {datagram : Bytes} {common : CommonHeader} {video : VideoHeader}

theorem final_concat : final ingest new (feed ++ [datagram]) = ((final ingest new feed).ingest datagram).2 :=
  final_append ingest new feed [datagram]

theorem Sound.start (sound : Sound feed) (headers : videoFragment datagram = some (common,video)) :
    ∃ span, Since (frameKey video) feed span ∧
      let start := ((final ingest new feed).buffers.get? (frameKey video)).getD (FrameBuffer.new common video)
      Filled (frameKey video) span start ∧ start.received < start.totalFrags.toNat := by
  cases found : (final ingest new feed).buffers.get? (frameKey video) with
  | some buf => exact sound.buffered (frameKey video) buf found
  | none => exact ⟨[],.absent found,.new headers,totalFrags_pos headers⟩

theorem Sound.ingest (sound : Sound feed) (datagram : Bytes) : Sound (feed ++ [datagram]) where
  few := by
    rw [final_concat]
    exact size_ingest sound.few datagram
  buffered key buf kept := by
    have present : (final Reassembler.ingest new (feed ++ [datagram])).buffers.contains key = true := by
      rw [AssocMap.contains,kept]
      rfl
    rw [final_concat] at kept
    by_cases own : fragmentKey datagram = some key
    · obtain ⟨⟨common,video⟩,headers,rfl⟩ := Option.map_eq_some_iff.mp own
      obtain ⟨span,since,filled,missing⟩ := sound.start headers
      have outcome := ingest_outcome (r := final Reassembler.ingest new feed) headers
      rw [kept] at outcome
      generalize ((final Reassembler.ingest new feed).ingest datagram).1 = delivered at outcome
      refine ⟨span ++ [datagram],since.concat present,?_⟩
      cases outcome with
      | discarded => exact ⟨filled.later datagram,missing⟩
      | stored buf stored open' =>
        have filled' := filled.store missing headers rfl stored
        refine ⟨filled',lt_of_le_of_ne ?_ open'⟩
        rw [filled'.received,← filled'.slots]
        exact List.countP_le_length
    · obtain ⟨span,since,filled,missing⟩ := sound.buffered key buf (get?_ingest_kept own kept)
      exact ⟨span ++ [datagram],since.concat present,filled.later datagram,missing⟩

theorem sound_final (feed : List Bytes) : Sound feed := by
  induction feed using List.reverseRecOn with
  | nil => exact ⟨Nat.zero_le _,fun key buf none => (nomatch none)⟩
  | append_singleton earlier datagram ih => exact ih.ingest datagram

end Step

/-- Whatever is fed, few frames are buffered, each buffer counts its filled slots and lacks one,
and every chunk that is held or delivered came in since the buffer of its frame was created. A
packet is that of the fragment that completes it: as many chunks as its header states. -/
theorem buffers_sound (feed : List Bytes) :
    (final ingest new feed).buffers.size ≤ 32 ∧
    (∀ key buf, (final ingest new feed).buffers.get? key = some buf →
      buf.slots.length = buf.totalFrags.toNat ∧ 1 ≤ buf.totalFrags.toNat ∧
      buf.received = buf.slots.countP Option.isSome ∧ buf.received < buf.totalFrags.toNat ∧
      ∃ span, Since key feed span ∧ ∀ (i : Nat) (chunk : Bytes), buf.slots[i]? = some (some chunk) →
        ∃ datagram ∈ span, Brings key buf.totalFrags i chunk datagram) ∧
    ∀ last packet, ((final ingest new feed).ingest last).1 = some packet →
      ∃ common video span, ∃ chunks : List Bytes, videoFragment last = some (common,video) ∧
        Since (frameKey video) feed span ∧ 1 ≤ video.totalFrags.toNat ∧
        chunks.length = video.totalFrags.toNat ∧ packet.data = chunks.flatten ∧
        ∀ (i : Nat) (chunk : Bytes), chunks[i]? = some chunk →
          ∃ datagram ∈ span ++ [last], Brings (frameKey video) video.totalFrags i chunk datagram := by
  have sound := sound_final feed
  refine ⟨sound.few,fun key buf found => ?_,fun last packet delivered => ?_⟩
  · obtain ⟨span,since,filled,missing⟩ := sound.buffered key buf found
    exact ⟨filled.slots,filled.positive,filled.received,missing,span,since,filled.brought⟩
  · cases headers : videoFragment last with
    | none =>
      rw [ingest,headers] at delivered
      cases delivered
    | some pair =>
      obtain ⟨common,video⟩ := pair
      obtain ⟨span,since,filled,missing⟩ := sound.start headers
      have outcome := ingest_outcome (r := final ingest new feed) headers
      rw [delivered] at outcome
      generalize (((final ingest new feed).ingest last).2.buffers.get? (frameKey video)) = left at outcome
      cases outcome with
      | completed buf stored full =>
        have filled' := filled.store missing headers rfl stored
        obtain ⟨chunks,count,data,brought⟩ := filled'.full full
        have total : video.totalFrags = buf.totalFrags := by
          obtain ⟨total,-,rfl⟩ := FrameBuffer.store_spec stored
          exact total
        rw [← total] at count brought
        exact ⟨common,video,span,chunks,rfl,since,totalFrags_pos headers,count,data,brought⟩

end Reassembler

end Streamhaul
