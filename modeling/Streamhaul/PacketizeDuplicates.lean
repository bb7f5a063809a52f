import Streamhaul.PacketizeDelivery

/-! Copies of fragments. A copy is recognised while the frame is being collected; once the frame
was delivered or dropped, the reassembler remembers nothing of it. -/
namespace Streamhaul

open Machine

namespace VideoHeader

theorem frameId_lt {data : Bytes} {header : VideoHeader} (decoded : decode data = .ok header) :
    header.frameId.toNat < 0x1000000 := by
  unfold decode at decoded
  split at decoded
  · next f0 f1 f2 _ _ byte5 _ _ _ _ _ _ _ =>
    have small := fromBeBytes_lt [f0,f1,f2]
    have padded : fromBeBytes [0,f0,f1,f2] = fromBeBytes [f0,f1,f2] := by simp [fromBeBytes]
    split at decoded
    · cases decoded
    · cases codec : Codec.fromBits (byte5 >>> 4) with
      | error e => simp [codec,bind,Except.bind] at decoded
      | ok _ =>
        cases frameType : FrameType.fromBits ((byte5 >>> 2) &&& 0x03) with
        | error e => simp [codec,frameType,bind,Except.bind] at decoded
        | ok _ =>
          cases priority : Priority.fromBits (byte5 &&& 0x03) with
          | error e => simp [codec,frameType,priority,bind,Except.bind] at decoded
          | ok _ =>
            simp only [codec,frameType,priority,bind,Except.bind,pure,Except.pure,Except.ok.injEq] at decoded
            subst decoded
            simp only [padded,UInt64.toNat_ofNat',List.length_cons,List.length_nil] at small ⊢
            omega
  · cases decoded

end VideoHeader

theorem toNat_masked_of_lt {id : UInt64} (small : id.toNat < 0x1000000) : (id &&& maxFrameId).toNat = id.toNat := by
  rw [low24_eq,UInt64.toNat_mod]
  exact Nat.mod_eq_of_lt small

theorem frameKey_eq {datagram : Bytes} {common : CommonHeader} {video : VideoHeader}
    (headers : videoFragment datagram = some (common,video)) : frameKey video = video.frameId.toNat := by
  unfold videoFragment at headers
  cases first : CommonHeader.decode datagram with
  | error e => simp [first] at headers
  | ok common' =>
    cases second : VideoHeader.decode (datagram.drop commonHeaderLen) with
    | error e => simp [first,second] at headers
    | ok video' =>
      simp only [first,second] at headers
      split_ifs at headers
      cases headers
      exact toNat_masked_of_lt (VideoHeader.frameId_lt second)

namespace Reassembler

/-- Every buffer is kept under the id of its frame. -/
def Keyed (r : Reassembler) : Prop := ∀ key buf, r.buffers.get? key = some buf → buf.frameId.toNat = key

theorem Keyed.start {r : Reassembler} (keyed : Keyed r) {datagram : Bytes} {common : CommonHeader} {video : VideoHeader}
    (headers : videoFragment datagram = some (common,video)) :
    ((r.buffers.get? (frameKey video)).getD (FrameBuffer.new common video)).frameId.toNat = frameKey video := by
  cases found : r.buffers.get? (frameKey video) with
  | some buf => exact keyed (frameKey video) buf found
  | none => exact (frameKey_eq headers).symm

/-- A step keeps the buffers under their ids, and delivers only the frame its datagram belongs to. -/
theorem Keyed.ingest {r : Reassembler} (keyed : Keyed r) (datagram : Bytes) :
    Keyed (r.ingest datagram).2 ∧
      ∀ packet, (r.ingest datagram).1 = some packet → fragmentKey datagram = some packet.frameId.toNat := by
  refine ⟨fun key buf kept => ?_,fun packet delivered => ?_⟩
  · by_cases own : fragmentKey datagram = some key
    · obtain ⟨⟨common,video⟩,headers,rfl⟩ := Option.map_eq_some_iff.mp own
      have outcome := ingest_outcome (r := r) headers
      rw [kept] at outcome
      generalize (r.ingest datagram).1 = delivered at outcome
      cases outcome with
      | discarded => exact keyed.start headers
      | stored buf stored missing =>
        obtain ⟨-,-,rfl⟩ := FrameBuffer.store_spec stored
        exact keyed.start headers
    · exact keyed key buf (get?_ingest_kept own kept)
  · cases headers : videoFragment datagram with
    | none =>
      rw [Reassembler.ingest,headers] at delivered
      cases delivered
    | some pair =>
      obtain ⟨common,video⟩ := pair
      have outcome := ingest_outcome (r := r) headers
      rw [delivered] at outcome
      generalize (r.ingest datagram).2.buffers.get? (frameKey video) = left at outcome
      cases outcome with
      | completed buf stored full =>
        obtain ⟨-,-,rfl⟩ := FrameBuffer.store_spec stored
        rw [fragmentKey,headers]
        exact congrArg some (keyed.start headers).symm

section Copies

variable {f : VideoFrame} {wire : Nat → Bytes} {r : Reassembler} {i : Nat}

/-- The reassembler follows the frame: it holds some of its fragments and nothing else. -/
def Tracks (f : VideoFrame) (r : Reassembler) : Prop :=
  ∃ present ⊆ Finset.range f.parts.length, f.Holds r present

def Has (f : VideoFrame) (r : Reassembler) (i : Nat) : Prop :=
  ∃ present ⊆ Finset.range f.parts.length, f.Holds r present ∧ i ∈ present

theorem holds_unique {one other : Finset Nat} (within : one ⊆ Finset.range f.parts.length)
    (within' : other ⊆ Finset.range f.parts.length) (first : f.Holds r one) (second : f.Holds r other) : one = other := by
  rw [VideoFrame.Holds] at first second
  rw [first] at second
  by_cases none : one = ∅
  · by_cases none' : other = ∅
    · rw [none,none']
    · simp [none,none'] at second
  · by_cases none' : other = ∅
    · simp [none,none'] at second
    · rw [if_neg none,if_neg none',Option.some.injEq] at second
      have slots : Chunks.slots f.parts one = Chunks.slots f.parts other := congrArg FrameBuffer.slots second
      ext j
      by_cases inside : j < f.parts.length
      · have here := congrArg (·[j]?) slots
        simp only [Chunks.getElem?_slots (List.getElem?_eq_getElem inside),Option.some.injEq] at here
        by_cases left : j ∈ one <;> by_cases right : j ∈ other <;> simp_all
      · constructor
        · intro member
          exact absurd (Finset.mem_range.mp (within member)) inside
        · intro member
          exact absurd (Finset.mem_range.mp (within' member)) inside

theorem contains_iff_of_holds {present : Finset Nat} (holds : f.Holds r present) :
    r.buffers.contains f.key = true ↔ present ≠ ∅ := by
  rw [AssocMap.contains,holds]
  by_cases none : present = ∅ <;> simp [none]

theorem Sent.tracks (sent : Sent f wire) {present : Finset Nat} (within : present ⊆ Finset.range f.parts.length)
    (holds : f.Holds r present) {datagram : Bytes} (belongs : Belongs f wire datagram) :
    ∃ next ⊆ Finset.range f.parts.length, f.Holds (r.ingest datagram).2 next ∧
      (next = ∅ ∨ next = present ∧ (∀ j < f.parts.length, datagram = wire j → j ∈ present) ∨
        ∃ j < f.parts.length, datagram = wire j ∧ next = insert j present) := by
  rcases belongs with ⟨j,inside,rfl⟩ | other
  · obtain ⟨common,video,carried⟩ := sent j inside
    obtain ⟨_,after⟩ := ingest_collects carried holds within
    refine ⟨_,Chunks.collect_within within inside,after,?_⟩
    unfold Chunks.collect
    split_ifs with here done
    · refine .inr (.inl ⟨rfl,fun k bound same => ?_⟩)
      rwa [← sent.injective inside bound same]
    · exact .inl rfl
    · exact .inr (.inr ⟨j,inside,rfl,rfl⟩)
  · have absent : ∀ j < f.parts.length, datagram = wire j → j ∈ present := by
      rintro j inside rfl
      exact absurd (sent.key inside) other
    have kept : (r.ingest datagram).2.buffers.get? f.key = r.buffers.get? f.key ∨
        (r.ingest datagram).2.buffers.get? f.key = none := by
      rcases get?_ingest_other (r := r) other with same | ⟨key',_,same⟩
      · exact .inl same
      · rw [same]
        exact get?_makeRoom_cases r.buffers key' f.key
    rcases kept with same | gone
    · exact ⟨present,within,same.trans holds,.inr (.inl ⟨rfl,absent⟩)⟩
    · exact ⟨∅,Finset.empty_subset _,by rw [VideoFrame.Holds,if_pos rfl,gone],.inl rfl⟩

/-- Along a run, what is held has been fed. -/
theorem Sent.tracks_final (sent : Sent f wire) (feed : List Bytes) (belongs : ∀ datagram ∈ feed, Belongs f wire datagram) :
    ∃ present ⊆ Finset.range f.parts.length, f.Holds (final ingest new feed) present ∧ ∀ j ∈ present, wire j ∈ feed := by
  induction feed using List.reverseRecOn with
  | nil => exact ⟨∅,Finset.empty_subset _,by rw [VideoFrame.Holds,if_pos rfl]; rfl,fun j member => by cases member⟩
  | append_singleton feed datagram ih =>
    obtain ⟨present,within,holds,fed⟩ := ih (fun d member => belongs d (List.mem_append_left _ member))
    obtain ⟨next,within',holds',moved⟩ := sent.tracks within holds (belongs datagram (by simp))
    rw [final_append]
    refine ⟨next,within',holds',fun j member => ?_⟩
    rcases moved with rfl | ⟨rfl,_⟩ | ⟨k,_,rfl,rfl⟩
    · cases member
    · exact List.mem_append_left _ (fed j member)
    · rcases Finset.mem_insert.mp member with rfl | old
      · simp
      · exact List.mem_append_left _ (fed j old)

/-- A copy of a held fragment is dropped. -/
theorem Sent.ingest_has (sent : Sent f wire) (inside : i < f.parts.length) (has : Has f r i) :
    r.ingest (wire i) = (none,r) := by
  obtain ⟨present,within,holds,here⟩ := has
  obtain ⟨common,video,carried⟩ := sent i inside
  rw [ingest_carried carried holds within,if_pos here]

theorem Sent.ingest_not_has (sent : Sent f wire) (inside : i < f.parts.length) (tracks : Tracks f r) (lacks : ¬Has f r i) :
    r.ingest (wire i) ≠ (none,r) := by
  obtain ⟨present,within,holds⟩ := tracks
  have new : i ∉ present := fun here => lacks ⟨present,within,holds,here⟩
  obtain ⟨common,video,carried⟩ := sent i inside
  obtain ⟨response,after⟩ := ingest_collects carried holds within
  intro same
  rw [same] at response after
  unfold Chunks.collect at response after
  rw [if_neg new] at response after
  by_cases done : insert i present = Finset.range f.parts.length
  · rw [if_pos done] at response
    cases response
  · rw [if_neg done] at after
    have full := Finset.insert_subset (Finset.mem_range.mpr inside) within
    have back := holds_unique full within after holds
    exact new (back ▸ Finset.mem_insert_self i present)

theorem Sent.has_step (sent : Sent f wire) (has : Has f r i) {datagram : Bytes} (belongs : Belongs f wire datagram)
    (kept : (r.ingest datagram).2.buffers.contains f.key = true) : Has f (r.ingest datagram).2 i := by
  obtain ⟨present,within,holds,here⟩ := has
  obtain ⟨next,within',holds',moved⟩ := sent.tracks within holds belongs
  refine ⟨next,within',holds',?_⟩
  rcases moved with none | ⟨rfl,_⟩ | ⟨j,_,_,rfl⟩
  · exact absurd none ((contains_iff_of_holds holds').mp kept)
  · exact here
  · exact Finset.mem_insert_of_mem here

theorem Sent.has_own (sent : Sent f wire) (inside : i < f.parts.length) (tracks : Tracks f r)
    (kept : (r.ingest (wire i)).2.buffers.contains f.key = true) : Has f (r.ingest (wire i)).2 i := by
  obtain ⟨present,within,holds⟩ := tracks
  obtain ⟨next,within',holds',moved⟩ := sent.tracks within holds (.inl ⟨i,inside,rfl⟩)
  refine ⟨next,within',holds',?_⟩
  rcases moved with none | ⟨rfl,fed⟩ | ⟨j,bound,same,rfl⟩
  · exact absurd none ((contains_iff_of_holds holds').mp kept)
  · exact fed i inside rfl
  · rw [sent.injective inside bound same]
    exact Finset.mem_insert_self j present

theorem Sent.has_final (sent : Sent f wire) (feed : List Bytes) (has : Has f r i)
    (belongs : ∀ datagram ∈ feed, Belongs f wire datagram)
    (kept : ∀ part more, feed = part ++ more → (final ingest r part).buffers.contains f.key = true) :
    Has f (final ingest r feed) i := by
  induction feed generalizing r with
  | nil => exact has
  | cons datagram rest ih =>
    apply ih
    · exact sent.has_step has (belongs datagram List.mem_cons_self) (kept [datagram] rest rfl)
    · exact fun d member => belongs d (List.mem_cons_of_mem _ member)
    · rintro part more rfl
      exact kept (datagram :: part) more rfl

theorem Sent.not_has_final (sent : Sent f wire) (feed : List Bytes) (tracks : Tracks f r)
    (lacks : ¬Has f r i) (belongs : ∀ datagram ∈ feed, Belongs f wire datagram) (unfed : wire i ∉ feed) :
    Tracks f (final ingest r feed) ∧ ¬Has f (final ingest r feed) i := by
  induction feed generalizing r with
  | nil => exact ⟨tracks,lacks⟩
  | cons datagram rest ih =>
    obtain ⟨present,within,holds⟩ := tracks
    have new : i ∉ present := fun here => lacks ⟨present,within,holds,here⟩
    obtain ⟨next,within',holds',moved⟩ := sent.tracks within holds (belongs datagram List.mem_cons_self)
    apply ih ⟨next,within',holds'⟩
    · rintro ⟨again,within'',holds'',here⟩
      rw [holds_unique within'' within' holds'' holds'] at here
      rcases moved with rfl | ⟨rfl,_⟩ | ⟨j,_,rfl,rfl⟩
      · cases here
      · exact new here
      · rcases Finset.mem_insert.mp here with rfl | old
        · exact unfed List.mem_cons_self
        · exact new old
    · exact fun d member => belongs d (List.mem_cons_of_mem _ member)
    · exact fun later => unfed (List.mem_cons_of_mem _ later)

/-- From a datagram of the frame to any later copy of it, the frame has a buffer without
interruption: it is neither delivered nor dropped in between. -/
def Retained (frags : List Bytes) (key : Nat) (feed : List Bytes) : Prop :=
  ∀ first part more rest datagram, datagram ∈ frags → feed = first ++ datagram :: (part ++ more ++ datagram :: rest) →
    (final ingest new (first ++ datagram :: part)).buffers.contains key = true

/-- A copy of a datagram that was fed before changes nothing. -/
def CopiesDropped (frags feed : List Bytes) : Prop :=
  ∀ before datagram after, datagram ∈ frags → feed = before ++ datagram :: after → datagram ∈ before →
    (final ingest new before).ingest datagram = (none,final ingest new before)

def deliveries (id : UInt64) (events : List (Event Reassembler Bytes (Option EncodedPacket))) : Nat :=
  events.countP (fun e => e.response.any (fun packet => packet.frameId == id))

variable {frags : List Bytes} {feed : List Bytes}

theorem Sent.tracks_prefix (sent : Sent f wire) {before : List Bytes}
    (belongs : ∀ datagram ∈ before, Belongs f wire datagram) : Tracks f (final ingest new before) := by
  obtain ⟨present,within,holds,_⟩ := sent.tracks_final before belongs
  exact ⟨present,within,holds⟩

/-- Copies are dropped exactly when the frame is retained from each datagram to its copies. -/
theorem Sent.copiesDropped_iff (sent : Sent f wire)
    (own : ∀ datagram, datagram ∈ frags ↔ ∃ i < f.parts.length, datagram = wire i)
    (belongs : ∀ datagram ∈ feed, Belongs f wire datagram) :
    CopiesDropped frags feed ↔ Retained frags f.key feed := by
  constructor
  · intro dropped first part more rest datagram member split
    obtain ⟨i,inside,rfl⟩ := (own datagram).mp member
    by_contra gone
    have cut : feed = (first ++ wire i :: part) ++ (more ++ wire i :: rest) := by rw [split]; simp
    rw [cut] at belongs
    have tracks := sent.tracks_prefix (fun d member => belongs d (List.mem_append_left _ member))
    have lacks : ¬Has f (final ingest new (first ++ wire i :: part)) i := by
      rintro ⟨present,within,holds,here⟩
      exact gone ((contains_iff_of_holds holds).mpr (Finset.ne_empty_of_mem here))
    -- the next copy after the interruption is the one that is not dropped
    obtain ⟨quiet,later,next,unfed⟩ := List.eq_append_cons_of_mem
      (List.mem_append_right more (List.mem_cons_self (a := wire i) (l := rest)))
    rw [next] at cut belongs
    obtain ⟨tracks',lacks'⟩ := sent.not_has_final quiet tracks lacks
      (fun d here => belongs d (List.mem_append_right _ (List.mem_append_left _ here))) unfed
    rw [← final_append] at tracks' lacks'
    apply sent.ingest_not_has inside tracks' lacks'
    apply dropped _ _ later member
    · rw [cut]
      simp
    · simp
  · intro retained before datagram after member split earlier
    obtain ⟨i,inside,rfl⟩ := (own datagram).mp member
    obtain ⟨first,part,rfl⟩ := List.append_of_mem earlier
    rw [split] at belongs
    apply sent.ingest_has inside
    have kept : ∀ start more, part = start ++ more →
        (final ingest new (first ++ wire i :: start)).buffers.contains f.key = true := by
      rintro start more rfl
      apply retained first start more after (wire i) member
      rw [split]
      simp
    rw [List.append_cons,final_append]
    apply sent.has_final part
    · rw [final_append]
      apply sent.has_own inside
      · exact sent.tracks_prefix (fun d here => belongs d (List.mem_append_left _ (List.mem_append_left _ here)))
      · have now := kept [] part rfl
        rwa [final_append] at now
    · intro d here
      exact belongs d (List.mem_append_left _ (List.mem_append_right _ (List.mem_cons_of_mem _ here)))
    · intro start more cut
      have now := kept start more cut
      rwa [List.append_cons,final_append] at now

theorem keyed_final (feed : List Bytes) : Keyed (final ingest new feed) := by
  apply final_invariant ingest (fun _ _ => True) Keyed
  · exact fun r datagram _ keyed => (keyed.ingest datagram).1
  · intro key buf found
    cases found
  · exact fun _ _ => trivial

theorem Sent.deliveries_le_one (sent : Sent f wire) (id : f.frameId.toNat = f.key)
    (own : ∀ datagram, datagram ∈ frags ↔ ∃ i < f.parts.length, datagram = wire i)
    (belongs : ∀ datagram ∈ feed, Belongs f wire datagram) (dropped : CopiesDropped frags feed) :
    deliveries f.frameId (trace ingest new feed) ≤ 1 ∧
      (deliveries f.frameId (trace ingest new feed) = 1 → ∀ i < f.parts.length, wire i ∈ feed) := by
  induction feed using List.reverseRecOn with
  | nil => simp [deliveries,trace]
  | append_singleton feed datagram ih =>
    obtain ⟨few,all⟩ := ih (fun d member => belongs d (List.mem_append_left _ member))
      (fun before d after member split => dropped before d (after ++ [datagram]) member (by rw [split]; simp))
    have count : deliveries f.frameId (trace ingest new (feed ++ [datagram])) =
        deliveries f.frameId (trace ingest new feed) +
          if ((final ingest new feed).ingest datagram).1.any (fun packet => packet.frameId == f.frameId) then 1 else 0 := by
      simp [deliveries,trace_append,trace,fire,List.countP_append,List.countP_cons]
    rw [count]
    by_cases delivered : ((final ingest new feed).ingest datagram).1.any (fun packet => packet.frameId == f.frameId) = true
    · obtain ⟨packet,response,same⟩ := (Option.any_eq_true _ _).mp delivered
      have mine := ((keyed_final feed).ingest datagram).2 packet response
      rw [beq_iff_eq.mp same,id] at mine
      obtain ⟨i,inside,rfl⟩ := (belongs datagram (by simp)).resolve_right (fun other => other mine)
      obtain ⟨present,within,holds,fed⟩ := sent.tracks_final feed (fun d member => belongs d (List.mem_append_left _ member))
      obtain ⟨common,video,carried⟩ := sent i inside
      obtain ⟨collected,_⟩ := ingest_collects carried holds within
      have unfed : wire i ∉ feed := by
        intro earlier
        rw [dropped feed (wire i) [] ((own _).mpr ⟨i,inside,rfl⟩) rfl earlier] at response
        cases response
      have completes : (Chunks.collect f.parts.length present i).1 = true := by
        by_contra some
        rw [if_neg some,response] at collected
        cases collected
      have every : ∀ j < f.parts.length, wire j ∈ feed ++ [wire i] := by
        intro j bound
        have member : j ∈ insert i present := by
          rw [Chunks.collect_completes completes]
          exact Finset.mem_range.mpr bound
        rcases Finset.mem_insert.mp member with rfl | old
        · simp
        · exact List.mem_append_left _ (fed j old)
      have none : deliveries f.frameId (trace ingest new feed) = 0 := by
        by_contra some
        exact unfed (all (by omega) i inside)
      rw [if_pos delivered,none]
      exact ⟨le_rfl,fun _ => every⟩
    · rw [if_neg delivered,Nat.add_zero]
      exact ⟨few,fun one i inside => List.mem_append_left _ (all one i inside)⟩

end Copies

/-- A frame is delivered at most once and its copies are dropped, exactly when from each of its
datagrams to any later copy the frame keeps its buffer. -/
theorem delivered_once_iff {packet : EncodedPacket} {seqStart : UInt16} {maxDatagram : Nat} {frags : List Bytes}
    (built : fragment packet seqStart maxDatagram = .ok frags) (feed : List Bytes)
    (alone : ∀ datagram ∈ feed, datagram ∈ frags ∨ fragmentKey datagram ≠ some (packet.frameId % 0x1000000).toNat) :
    (deliveries (packet.frameId % 0x1000000) (trace ingest new feed) ≤ 1 ∧ CopiesDropped frags feed) ↔
      Retained frags (packet.frameId % 0x1000000).toNat feed := by
  obtain ⟨size,n,rfl,cut,rfl⟩ := fragment_ok packet seqStart built
  have sent := sent_fragments seqStart cut
  have id : (packetFrame packet size n).frameId.toNat = (packetFrame packet size n).key := by
    rw [packetFrame_key]
    rfl
  have belongs : ∀ datagram ∈ feed, Belongs (packetFrame packet size n) (fragmentDatagram packet seqStart size n) datagram := by
    intro datagram member
    rw [Belongs,packetFrame_key,← mem_fragments]
    exact alone datagram member
  rw [← packetFrame_key packet size n,← sent.copiesDropped_iff (fun _ => mem_fragments) belongs]
  constructor
  · exact fun both => both.2
  · exact fun dropped => ⟨(sent.deliveries_le_one id (fun _ => mem_fragments) belongs dropped).1,dropped⟩

end Reassembler

namespace Transparent

def copiedFeed : List Bytes := [(fragments rawPacket 0).getD 0 [],(fragments rawPacket 0).getD 0 []]

end Transparent

namespace Reassembler

open Transparent

theorem copied_fragment_dropped :
    deliveries 7 (trace ingest new copiedFeed) ≤ 1 ∧ CopiesDropped (fragments rawPacket 0) copiedFeed := by
  have built : fragment rawPacket 0 23 = .ok (fragments rawPacket 0) := by decide +kernel
  apply (delivered_once_iff built copiedFeed (by decide +kernel)).mpr
  intro first part more rest datagram _ split
  have size := congrArg List.length split
  simp only [copiedFeed,List.length_cons,List.length_append,List.length_nil] at size
  obtain rfl : first = [] := List.eq_nil_of_length_eq_zero (by omega)
  obtain rfl : part = [] := List.eq_nil_of_length_eq_zero (by omega)
  obtain rfl : datagram = (fragments rawPacket 0).getD 0 [] := (List.cons.inj split).1.symm
  decide +kernel

/-- A frame in one datagram that arrives twice is delivered twice. -/
theorem single_fragment_redelivered :
    fragment otherPacket 0 23 = .ok (fragments otherPacket 0) ∧ (fragments otherPacket 0).length = 1 ∧
      deliveries 8 (trace ingest new (fragments otherPacket 0 ++ fragments otherPacket 0)) = 2 ∧
      ¬CopiesDropped (fragments otherPacket 0) (fragments otherPacket 0 ++ fragments otherPacket 0) := by
  refine ⟨by decide +kernel,by decide +kernel,by decide +kernel,fun dropped => ?_⟩
  have copy := dropped (fragments otherPacket 0) ((fragments otherPacket 0).getD 0 []) [] (by decide +kernel)
    (by decide +kernel) (by decide +kernel)
  exact absurd copy (by decide +kernel)

end Reassembler

end Streamhaul
