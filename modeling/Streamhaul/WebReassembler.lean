import Streamhaul.WebVideo

/-! The browser's reassembler on arbitrary fragments. What it buffers is the tail of what was
pushed, so nothing of an interrupted frame gets into a later one. -/
namespace Streamhaul.VideoFragmentReassembler

/-- The reassembler when it has taken fragments of the frame that a header started. -/
def holding (head : WasmVideoHeader) (taken : List ParsedVideoFrame) : VideoFragmentReassembler :=
  ⟨some head.frameId,head.totalFrags,taken.length,head.codec,head.frameType,taken.map ParsedVideoFrame.payload,
    (taken.map ParsedVideoFrame.payload).flatten.length⟩

theorem concatChunks_holding (head : WasmVideoHeader) (taken : List ParsedVideoFrame) :
    (holding head taken).concatChunks = (taken.map ParsedVideoFrame.payload).flatten :=
  Chunks.writeAll_full List.length_replicate

/-- What becomes of a fragment that starts or continues a frame. -/
inductive Appended (head : WasmVideoHeader) (taken : List ParsedVideoFrame) (frame : ParsedVideoFrame) :
    Option CompleteAccessUnit × VideoFragmentReassembler → Prop
  | dropped : Appended head taken frame (none,idle)
  | completed (marked : frame.header.marker = true) (count : taken.length + 1 = head.totalFrags) :
      Appended head taken frame
        (some ⟨head.frameType,head.codec,((taken ++ [frame]).map ParsedVideoFrame.payload).flatten⟩,idle)
  | kept (unmarked : frame.header.marker = false) (more : taken.length + 1 < head.totalFrags)
      (small : ((taken ++ [frame]).map ParsedVideoFrame.payload).flatten.length ≤ maxBufferedBytes) :
      Appended head taken frame (none,holding head (taken ++ [frame]))

theorem append_appended (head : WasmVideoHeader) (taken : List ParsedVideoFrame) (frame : ParsedVideoFrame) :
    Appended head taken frame ((holding head taken).append frame) := by
  have bytes : ((taken ++ [frame]).map ParsedVideoFrame.payload).flatten.length =
      (holding head taken).bufferedBytes + frame.payload.length := by
    simp [holding]
  have next : { holding head taken with
      bufferedBytes := (holding head taken).bufferedBytes + frame.payload.length
      chunks := (holding head taken).chunks ++ [frame.payload]
      nextIndex := (holding head taken).nextIndex + 1 } = holding head (taken ++ [frame]) := by
    simp [holding]
  have step : (holding head taken).append frame =
      if maxBufferedBytes < (holding head taken).bufferedBytes + frame.payload.length then (none,idle)
      else if frame.header.marker then
        if (holding head (taken ++ [frame])).nextIndex ≠ head.totalFrags then (none,idle)
        else (some ⟨head.frameType,head.codec,(holding head (taken ++ [frame])).concatChunks⟩,idle)
      else if head.totalFrags ≤ (holding head (taken ++ [frame])).nextIndex then (none,idle)
      else (none,holding head (taken ++ [frame])) := by
    rw [← next]
    rfl
  have index : (holding head (taken ++ [frame])).nextIndex = taken.length + 1 := List.length_append
  rw [step,index,concatChunks_holding]
  by_cases large : maxBufferedBytes < (holding head taken).bufferedBytes + frame.payload.length
  · rw [if_pos large]
    exact .dropped
  rw [if_neg large]
  cases marked : frame.header.marker with
  | true =>
    rw [if_pos rfl]
    by_cases count : taken.length + 1 = head.totalFrags
    · rw [if_neg (not_not_intro count)]
      exact .completed marked count
    · rw [if_pos count]
      exact .dropped
  | false =>
    rw [if_neg Bool.false_ne_true]
    by_cases full : head.totalFrags ≤ taken.length + 1
    · rw [if_pos full]
      exact .dropped
    · rw [if_neg full]
      exact .kept marked (Nat.not_le.mp full) (bytes ▸ Nat.not_lt.mp large)

theorem getElem?_concat_some {α : Type} {l : List α} {x y : α} {i : Nat} (here : (l ++ [x])[i]? = some y) :
    l[i]? = some y ∧ i < l.length ∨ i = l.length ∧ y = x := by
  by_cases earlier : i < l.length
  · rw [List.getElem?_append_left earlier] at here
    exact .inl ⟨here,earlier⟩
  · rw [List.getElem?_append_right (Nat.not_lt.mp earlier),List.getElem?_singleton] at here
    split_ifs at here with last
    exact .inr ⟨by omega,(Option.some.inj here).symm⟩

/-- Fragments of the frame that a header started: all carry its id and count, in order. -/
structure Consecutive (head : WasmVideoHeader) (taken : List ParsedVideoFrame) : Prop where
  first : ∀ p, taken.head? = some p → p.header = head
  fields : ∀ (i : Nat) (p : ParsedVideoFrame), taken[i]? = some p →
    p.header.frameId = head.frameId ∧ p.header.totalFrags = head.totalFrags ∧ p.header.fragIndex = i

theorem Consecutive.nil (head : WasmVideoHeader) : Consecutive head [] :=
  ⟨fun _ none => (nomatch none),fun _ _ none => (nomatch none)⟩

theorem Consecutive.concat {head : WasmVideoHeader} {taken : List ParsedVideoFrame} {frame : ParsedVideoFrame}
    (consecutive : Consecutive head taken) (own : taken = [] → frame.header = head)
    (id : frame.header.frameId = head.frameId) (total : frame.header.totalFrags = head.totalFrags)
    (index : frame.header.fragIndex = taken.length) : Consecutive head (taken ++ [frame]) where
  first p here := by
    cases taken with
    | nil =>
      cases here
      exact own rfl
    | cons q rest => exact consecutive.first p here
  fields i p here := by
    rcases getElem?_concat_some here with ⟨earlier,_⟩ | ⟨rfl,rfl⟩
    · exact consecutive.fields i p earlier
    · exact ⟨id,total,index⟩

/-- What is buffered are the last pushes: consecutive fragments of one frame, without its marker. -/
inductive Collects (pushes : List ParsedVideoFrame) : VideoFragmentReassembler → Prop
  | idle : Collects pushes idle
  | holding (before taken : List ParsedVideoFrame) (head : WasmVideoHeader) (tail : pushes = before ++ taken)
      (consecutive : Consecutive head taken) (begun : taken ≠ [])
      (unmarked : ∀ p ∈ taken, p.header.marker = false) (more : taken.length < head.totalFrags)
      (small : (taken.map ParsedVideoFrame.payload).flatten.length ≤ maxBufferedBytes) :
      Collects pushes (holding head taken)

/-- A unit of several fragments, put together from the last pushes. -/
def Assembled (pushes : List ParsedVideoFrame) (frame : ParsedVideoFrame) (unit : CompleteAccessUnit) : Prop :=
  ∃ before first rest, pushes = before ++ first :: rest ∧ (first :: rest).length = frame.header.totalFrags ∧
    (∀ (i : Nat) (p : ParsedVideoFrame), (first :: rest)[i]? = some p → p.header.frameId = frame.header.frameId ∧
      p.header.totalFrags = frame.header.totalFrags ∧ p.header.fragIndex = i ∧
      (p.header.marker = true ↔ i + 1 = frame.header.totalFrags)) ∧
    unit = ⟨first.header.frameType,first.header.codec,((first :: rest).map ParsedVideoFrame.payload).flatten⟩

section Step

variable {pushes before taken : List ParsedVideoFrame} {head : WasmVideoHeader} {frame : ParsedVideoFrame}

/-- The fragment that completes a frame is its last and the only marked one. -/
theorem Consecutive.assembled (consecutive : Consecutive head (taken ++ [frame])) (tail : pushes = before ++ taken)
    (unmarked : ∀ p ∈ taken, p.header.marker = false) (marked : frame.header.marker = true)
    (count : taken.length + 1 = head.totalFrags) :
    Assembled (pushes ++ [frame]) frame
      ⟨head.frameType,head.codec,((taken ++ [frame]).map ParsedVideoFrame.payload).flatten⟩ := by
  obtain ⟨id,total,_⟩ := consecutive.fields taken.length frame (by simp)
  obtain ⟨first,rest,whole⟩ := List.exists_cons_of_ne_nil (List.concat_ne_nil frame taken)
  have own : first.header = head := consecutive.first first (by rw [whole]; rfl)
  refine ⟨before,first,rest,?_,?_,fun i p here => ?_,?_⟩
  · rw [tail,List.append_assoc,whole]
  · rw [← whole,List.length_append,List.length_singleton,count,total]
  · rw [← whole] at here
    obtain ⟨id',total',index⟩ := consecutive.fields i p here
    refine ⟨id'.trans id.symm,total'.trans total.symm,index,?_⟩
    rcases getElem?_concat_some here with ⟨earlier,bound⟩ | ⟨rfl,rfl⟩
    · rw [unmarked p (List.mem_of_getElem? earlier),total]
      exact iff_of_false Bool.false_ne_true (by omega)
    · exact iff_of_true marked (count.trans total.symm)
  · rw [← own,← whole]

theorem collects_appended (consecutive : Consecutive head (taken ++ [frame])) (tail : pushes = before ++ taken)
    (unmarked : ∀ p ∈ taken, p.header.marker = false)
    {outcome : Option CompleteAccessUnit × VideoFragmentReassembler} (appended : Appended head taken frame outcome) :
    Collects (pushes ++ [frame]) outcome.2 ∧ ∀ unit, outcome.1 = some unit → Assembled (pushes ++ [frame]) frame unit := by
  cases appended with
  | dropped => exact ⟨.idle,fun _ none => (nomatch none)⟩
  | completed marked count =>
    refine ⟨.idle,fun unit answered => ?_⟩
    cases answered
    exact consecutive.assembled tail unmarked marked count
  | kept last more small =>
    refine ⟨.holding before (taken ++ [frame]) head ?_ consecutive ?_ ?_ ?_ small,fun _ none => (nomatch none)⟩
    · rw [tail,List.append_assoc]
    · exact List.append_ne_nil_of_right_ne_nil _ (List.cons_ne_nil _ _)
    · exact Machine.forall_mem_concat unmarked last
    · rw [List.length_append]
      exact more

theorem Collects.push {r : VideoFragmentReassembler} (collects : Collects pushes r) (frame : ParsedVideoFrame) :
    Collects (pushes ++ [frame]) (r.push frame).2 ∧
      ∀ unit, (r.push frame).1 = some unit → 1 < frame.header.totalFrags → Assembled (pushes ++ [frame]) frame unit := by
  have pushed := push_pushed r frame
  generalize r.push frame = outcome at pushed
  cases pushed with
  | whole single => exact ⟨.idle,fun _ _ several => absurd several (Nat.not_lt.mpr single)⟩
  | dropped => exact ⟨.idle,fun _ none => (nomatch none)⟩
  | stray free =>
    refine ⟨?_,fun _ none => (nomatch none)⟩
    cases collects with
    | idle => exact .idle
    | holding => cases free
  | started start =>
    have alone : Consecutive frame.header ([] ++ [frame]) := (Consecutive.nil _).concat (fun _ => rfl) rfl rfl start
    obtain ⟨kept,assembled⟩ := collects_appended alone (List.append_nil pushes).symm (fun _ none => (nomatch none))
      (append_appended frame.header [] frame)
    exact ⟨kept,fun unit answered _ => assembled unit answered⟩
  | continued id total index =>
    cases collects with
    | idle => cases id
    | holding before taken head tail consecutive begun unmarked more small =>
      have extended := consecutive.concat (fun none => absurd none begun) (Option.some.inj id).symm total index
      obtain ⟨kept,assembled⟩ := collects_appended extended tail unmarked (append_appended head taken frame)
      exact ⟨kept,fun unit answered _ => assembled unit answered⟩

theorem Collects.bounded {r : VideoFragmentReassembler} (collects : Collects pushes r) :
    r.bufferedBytes = (r.chunks.map List.length).sum ∧ r.bufferedBytes ≤ maxBufferedBytes := by
  cases collects with
  | idle => exact ⟨rfl,Nat.zero_le _⟩
  | holding before taken head tail consecutive begun unmarked more small => exact ⟨List.length_flatten,small⟩

end Step

/-- After any pushes the byte counter is what is buffered and within its limit, and a unit of
several fragments is made of exactly the last pushes, one for each of its fragments in order. -/
theorem push_integrity (earlier : List ParsedVideoFrame) (frame : ParsedVideoFrame) :
    let outcome := (Machine.final push idle earlier).push frame
    outcome.2.bufferedBytes = (outcome.2.chunks.map List.length).sum ∧
    outcome.2.bufferedBytes ≤ maxBufferedBytes ∧
    ∀ unit, outcome.1 = some unit → 1 < frame.header.totalFrags → Assembled (earlier ++ [frame]) frame unit := by
  have collects := Machine.calls_invariant push Collects (fun _ _ frame collects => (collects.push frame).1) idle earlier .idle
  obtain ⟨kept,assembled⟩ := collects.push frame
  exact ⟨kept.bounded.1,kept.bounded.2,assembled⟩

/-- A frame whose head is repeated after an interruption is assembled from the repetition only. -/
theorem repeated_head_assembled :
    Assembled [⟨⟨7,0,2,0,1,false⟩,[9]⟩,⟨⟨7,0,2,0,1,false⟩,[1]⟩,⟨⟨7,1,2,0,1,true⟩,[2]⟩] ⟨⟨7,1,2,0,1,true⟩,[2]⟩ ⟨1,0,[1,2]⟩ :=
  (push_integrity [⟨⟨7,0,2,0,1,false⟩,[9]⟩,⟨⟨7,0,2,0,1,false⟩,[1]⟩] ⟨⟨7,1,2,0,1,true⟩,[2]⟩).2.2 _ (by decide +kernel)
    (by decide)

end Streamhaul.VideoFragmentReassembler
