import Streamhaul.Bytes

/-! Annex-B byte streams in the viewer: start codes of three or four bytes in front of NAL units. The scan
is over positions of the stream; what it does at a position depends only on the bytes from there on. -/
namespace Streamhaul.AnnexB

structure StartCode where
  offset : Nat
  scLen : Nat

structure Subarray where
  byteOffset : Nat
  bytes : Bytes

structure NalUnit where
  type : UInt8
  data : Subarray

def findStarts (stream : Bytes) (i : Nat) : List StartCode :=
  if i + 3 ≤ stream.length then
    if stream[i]? = some 0 ∧ stream[i + 1]? = some 0 then
      if stream[i + 2]? = some 1 then ⟨i,3⟩ :: findStarts stream (i + 3)
      else if i + 4 ≤ stream.length ∧ stream[i + 2]? = some 0 ∧ stream[i + 3]? = some 1 then
        ⟨i,4⟩ :: findStarts stream (i + 4)
      else findStarts stream (i + 1)
    else findStarts stream (i + 1)
  else []
termination_by stream.length - i

def subarray (stream : Bytes) (start stop : Nat) : Subarray := ⟨start,(stream.drop start).take (stop - start)⟩

/-- The units between the start codes, each up to the next code or to the end of the stream. -/
def unitsBetween (stream : Bytes) : List StartCode → List NalUnit
  | [] => []
  | cur :: rest =>
    let dataStart := cur.offset + cur.scLen
    let dataEnd := match rest.head? with
      | none => stream.length
      | some next => next.offset
    if dataStart ≥ dataEnd then unitsBetween stream rest
    else
      let data := subarray stream dataStart dataEnd
      match data.bytes.head? with
      | none => unitsBetween stream rest
      | some headerByte => ⟨headerByte &&& 0x1f,data⟩ :: unitsBetween stream rest

def splitNalUnits (stream : Bytes) : List NalUnit := unitsBetween stream (findStarts stream 0)

def nalIdrSlice : UInt8 := 5

def containsIdr (stream : Bytes) : Bool := (splitNalUnits stream).any (fun unit => unit.type == nalIdrSlice)

def codeLen (bytes : Bytes) : Option Nat :=
  if [0,0,1].isPrefixOf bytes then some 3 else if [0,0,0,1].isPrefixOf bytes then some 4 else none

/-- A start code ends in the bytes 00 00 01. -/
theorem codeLen_some {bytes : Bytes} {len : Nat} (code : codeLen bytes = some len) :
    3 ≤ len ∧ len ≤ bytes.length ∧ (bytes.drop (len - 3)).take 3 = [0,0,1] := by
  simp only [codeLen] at code
  split_ifs at code with three four
  · obtain ⟨after,rfl⟩ := List.isPrefixOf_iff_prefix.mp three
    obtain rfl := Option.some.inj code
    exact ⟨le_rfl,by simp,rfl⟩
  · obtain ⟨after,rfl⟩ := List.isPrefixOf_iff_prefix.mp four
    obtain rfl := Option.some.inj code
    exact ⟨by decide,by simp,rfl⟩

variable {stream : Bytes}

theorem findStarts_short {i : Nat} (short : stream.length < i + 3) : findStarts stream i = [] := by
  rw [findStarts,if_neg (Nat.not_le.mpr short)]

theorem begins_cons (stream pattern : Bytes) (i : Nat) (b : UInt8) : (b :: pattern).isPrefixOf (stream.drop i) = true ↔
    stream[i]? = some b ∧ pattern.isPrefixOf (stream.drop (i + 1)) = true := by
  by_cases inside : i < stream.length
  · rw [List.drop_eq_getElem_cons inside,List.getElem?_eq_getElem inside,List.isPrefixOf_cons_cons,Bool.and_eq_true,beq_iff_eq,
      Option.some.injEq,eq_comm]
  · simp [List.drop_eq_nil_of_le (Nat.not_lt.mp inside),List.getElem?_eq_none (Nat.not_lt.mp inside)]

theorem code3_iff (stream : Bytes) (i : Nat) : [0,0,1].isPrefixOf (stream.drop i) = true ↔
    stream[i]? = some 0 ∧ stream[i + 1]? = some 0 ∧ stream[i + 2]? = some 1 := by
  simp only [begins_cons,List.isPrefixOf_nil_left,and_true,Nat.add_assoc,Nat.reduceAdd]

theorem code4_iff (stream : Bytes) (i : Nat) : [0,0,0,1].isPrefixOf (stream.drop i) = true ↔
    stream[i]? = some 0 ∧ stream[i + 1]? = some 0 ∧ stream[i + 2]? = some 0 ∧ stream[i + 3]? = some 1 := by
  simp only [begins_cons,List.isPrefixOf_nil_left,and_true,Nat.add_assoc,Nat.reduceAdd]

theorem findStarts_eq (stream : Bytes) (i : Nat) : findStarts stream i =
    match codeLen (stream.drop i) with
    | some len => ⟨i,len⟩ :: findStarts stream (i + len)
    | none => findStarts stream (i + 1) := by
  have inside : ∀ {k : Nat} {b : UInt8}, stream[k]? = some b → k < stream.length :=
    fun found => (List.getElem?_eq_some_iff.mp found).1
  by_cases three : [0,0,1].isPrefixOf (stream.drop i) = true
  · obtain ⟨first,second,third⟩ := (code3_iff stream i).mp three
    have room : i + 3 ≤ stream.length := inside third
    rw [codeLen,if_pos three,findStarts,if_pos room,if_pos ⟨first,second⟩,if_pos third]
  by_cases four : [0,0,0,1].isPrefixOf (stream.drop i) = true
  · obtain ⟨first,second,third,fourth⟩ := (code4_iff stream i).mp four
    have room := inside fourth
    have other : ¬stream[i + 2]? = some 1 := by simp [third]
    rw [codeLen,if_neg three,if_pos four,findStarts,if_pos (by omega),if_pos ⟨first,second⟩,if_neg other,
      if_pos ⟨room,third,fourth⟩]
  · rw [codeLen,if_neg three,if_neg four]
    by_cases enough : i + 3 ≤ stream.length
    · rw [findStarts,if_pos enough]
      split_ifs with zeros one more
      · exact absurd ((code3_iff stream i).mpr ⟨zeros.1,zeros.2,one⟩) three
      · exact absurd ((code4_iff stream i).mpr ⟨zeros.1,zeros.2,more.2⟩) four
      · rfl
      · rfl
    · rw [findStarts_short (by omega),findStarts_short (by omega)]

/-- Bytes that start codes can be told from: no two zeros in front of a zero or a one, and none at the end. -/
structure Escaped (bytes : Bytes) : Prop where
  zeros : ¬[0,0,0] <:+: bytes
  code : ¬[0,0,1] <:+: bytes
  ending : bytes.getLast? ≠ some 0

structure Nal where
  bytes : Bytes
  nonempty : bytes ≠ []
  escaped : Escaped bytes

-- an emulation prevention byte keeps the two zeros in front of it apart from what follows
example : Escaped [0x65,0,0,3,1] := ⟨by decide,by decide,by decide⟩

def Nal.header (nal : Nal) : UInt8 := nal.bytes.head nal.nonempty

def startCode (four : Bool) : Bytes := if four then [0,0,0,1] else [0,0,1]

def framed (piece : Bool × Nal) : Bytes := startCode piece.1 ++ piece.2.bytes

namespace Escaped

theorem tail {b : UInt8} {rest : Bytes} (escaped : Escaped (b :: rest)) : Escaped rest := by
  refine ⟨fun found => escaped.zeros (List.infix_cons found),fun found => escaped.code (List.infix_cons found),?_⟩
  cases rest with
  | nil => simp
  | cons c later => simpa using escaped.ending

theorem codeLen_eq_none {b : UInt8} {rest : Bytes} (escaped : Escaped (b :: rest)) (after : Bytes) :
    codeLen (b :: rest ++ after) = none := by
  obtain ⟨zeros,code,ending⟩ := escaped
  match rest with
  | [] =>
    have last : b ≠ 0 := by simpa using ending
    simp [codeLen,last.symm]
  | [c] =>
    have last : c ≠ 0 := by simpa using ending
    simp [codeLen,last.symm]
  | c :: d :: later =>
    have three : ¬[0,0,1].isPrefixOf (b :: c :: d :: (later ++ after)) = true := by
      rw [List.isPrefixOf_iff_prefix]
      simp only [List.cons_prefix_cons]
      rintro ⟨rfl,rfl,rfl,-⟩
      exact code ⟨[],later,rfl⟩
    have four : ¬[0,0,0,1].isPrefixOf (b :: c :: d :: (later ++ after)) = true := by
      rw [List.isPrefixOf_iff_prefix]
      simp only [List.cons_prefix_cons]
      rintro ⟨rfl,rfl,rfl,-⟩
      exact zeros ⟨[],later,rfl⟩
    exact (if_neg three).trans (if_neg four)

end Escaped

/-- The scan passes over escaped bytes. -/
theorem findStarts_escaped {bytes : Bytes} (escaped : Escaped bytes) (front after : Bytes) :
    findStarts (front ++ (bytes ++ after)) front.length =
      findStarts (front ++ (bytes ++ after)) (front.length + bytes.length) := by
  induction bytes generalizing front with
  | nil => rfl
  | cons b rest ih =>
    rw [findStarts_eq,List.drop_left,escaped.codeLen_eq_none]
    have next := ih escaped.tail (front ++ [b])
    simpa [Nat.add_assoc,Nat.add_comm 1] using next

def framedStarts : Nat → List (Bool × Nal) → List StartCode
  | _, [] => []
  | i, piece :: rest => ⟨i,(startCode piece.1).length⟩ :: framedStarts (i + (framed piece).length) rest

theorem codeLen_framed (piece : Bool × Nal) (after : Bytes) :
    codeLen (framed piece ++ after) = some (startCode piece.1).length := by
  obtain ⟨four,nal⟩ := piece
  cases four <;> rfl

theorem findStarts_framed (front : Bytes) (pieces : List (Bool × Nal)) :
    findStarts (front ++ pieces.flatMap framed) front.length = framedStarts front.length pieces := by
  induction pieces generalizing front with
  | nil => exact findStarts_short (by simp)
  | cons piece rest ih =>
    rw [findStarts_eq,List.drop_left,List.flatMap_cons,codeLen_framed]
    have passed := findStarts_escaped piece.2.escaped (front ++ startCode piece.1) (rest.flatMap framed)
    have later := ih (front ++ framed piece)
    simp only [framed,List.append_assoc,List.length_append,Nat.add_assoc] at passed later ⊢
    rw [passed,later,framedStarts]
    simp only [framed,List.length_append]

theorem unitsBetween_framed (front : Bytes) (pieces : List (Bool × Nal)) :
    (unitsBetween (front ++ pieces.flatMap framed) (framedStarts front.length pieces)).map
        (fun unit => (unit.type,unit.data.bytes)) = pieces.map (fun piece => (piece.2.header &&& 0x1f,piece.2.bytes)) := by
  induction pieces generalizing front with
  | nil => rfl
  | cons piece rest ih =>
    rw [List.flatMap_cons]
    have later := ih (front ++ framed piece)
    rw [List.length_append,List.append_assoc] at later
    have stop : (match (framedStarts (front.length + (framed piece).length) rest).head? with
        | none => (front ++ (framed piece ++ rest.flatMap framed)).length
        | some next => next.offset) = front.length + (framed piece).length := by
      cases rest with
      | nil => simp [framedStarts]
      | cons next others => rfl
    have size : (framed piece).length = (startCode piece.1).length + piece.2.bytes.length := List.length_append
    have positive : 0 < piece.2.bytes.length := List.length_pos_of_ne_nil piece.2.nonempty
    have data : (subarray (front ++ (framed piece ++ rest.flatMap framed)) (front.length + (startCode piece.1).length)
        (front.length + (framed piece).length)).bytes = piece.2.bytes := by
      have ahead : front ++ (framed piece ++ rest.flatMap framed) =
          (front ++ startCode piece.1) ++ (piece.2.bytes ++ rest.flatMap framed) := by
        simp [framed]
      have width : front.length + (framed piece).length - (front.length + (startCode piece.1).length) =
          piece.2.bytes.length := by
        omega
      rw [subarray,ahead,width,← List.length_append,List.drop_left,List.take_left]
    simp only [framedStarts,unitsBetween,stop]
    rw [if_neg (by omega),data,List.head?_eq_some_head piece.2.nonempty]
    simp only [List.map_cons,data,later]
    rfl

theorem splitNalUnits_framed (pieces : List (Bool × Nal)) :
    (splitNalUnits (pieces.flatMap framed)).map (fun unit => (unit.type,unit.data.bytes)) =
      pieces.map (fun piece => (piece.2.header &&& 0x1f,piece.2.bytes)) := by
  have starts : findStarts (pieces.flatMap framed) 0 = framedStarts 0 pieces := findStarts_framed [] pieces
  rw [splitNalUnits,starts]
  exact unitsBetween_framed [] pieces

theorem containsIdr_framed (pieces : List (Bool × Nal)) :
    containsIdr (pieces.flatMap framed) = pieces.any (fun piece => piece.2.header &&& 0x1f == nalIdrSlice) := by
  have same := congrArg (List.any · (fun unit => unit.1 == nalIdrSlice)) (splitNalUnits_framed pieces)
  simpa [List.any_map,Function.comp_def,containsIdr] using same

/-- Start codes in the order of the stream, none before a position and none inside another. -/
def Ordered (stream : Bytes) : Nat → List StartCode → Prop
  | _, [] => True
  | i, start :: rest => i ≤ start.offset ∧ codeLen (stream.drop start.offset) = some start.scLen ∧
      Ordered stream (start.offset + start.scLen) rest

theorem Ordered.mono {i j : Nat} (before : i ≤ j) {starts : List StartCode} (ordered : Ordered stream j starts) :
    Ordered stream i starts := by
  cases starts with
  | nil => trivial
  | cons start rest => exact ⟨before.trans ordered.1,ordered.2⟩

theorem ordered_findStarts (stream : Bytes) (i : Nat) : Ordered stream i (findStarts stream i) := by
  by_cases short : stream.length < i + 3
  · rw [findStarts_short short]
    trivial
  · rw [findStarts_eq]
    cases code : codeLen (stream.drop i) with
    | none => exact (ordered_findStarts stream (i + 1)).mono (Nat.le_succ i)
    | some len => exact ⟨le_rfl,code,ordered_findStarts stream (i + len)⟩
termination_by stream.length - i
decreasing_by
  · omega
  · have positive := (codeLen_some code).1
    omega

/-- A unit is a view of the stream right behind the bytes 00 00 01, and its type is in its first byte. -/
structure Located (stream : Bytes) (unit : NalUnit) : Prop where
  view : unit.data.bytes = (stream.drop unit.data.byteOffset).take unit.data.bytes.length
  inside : unit.data.byteOffset + unit.data.bytes.length ≤ stream.length
  preceded : 3 ≤ unit.data.byteOffset ∧ (stream.drop (unit.data.byteOffset - 3)).take 3 = [0,0,1]
  header : unit.data.bytes.head?.map (· &&& 0x1f) = some unit.type

theorem exists_stop {i : Nat} {rest : List StartCode} (ordered : Ordered stream i rest) :
    ∃ stop, (match rest.head? with
      | none => stream.length
      | some next => next.offset) = stop ∧ Ordered stream stop rest ∧ stop ≤ stream.length := by
  cases rest with
  | nil => exact ⟨_,rfl,trivial,le_rfl⟩
  | cons next more =>
    obtain ⟨three,fits,-⟩ := codeLen_some ordered.2.1
    rw [List.length_drop] at fits
    exact ⟨next.offset,rfl,⟨le_rfl,ordered.2⟩,by omega⟩

theorem unitsBetween_spec {i : Nat} {starts : List StartCode} (ordered : Ordered stream i starts) :
    (∀ unit ∈ unitsBetween stream starts, Located stream unit ∧ i ≤ unit.data.byteOffset) ∧
    (unitsBetween stream starts).Pairwise
      (fun first second => first.data.byteOffset + first.data.bytes.length ≤ second.data.byteOffset) := by
  induction starts generalizing i with
  | nil => exact ⟨fun unit none => (nomatch none),.nil⟩
  | cons cur rest ih =>
    obtain ⟨start,code,after⟩ := ordered
    obtain ⟨three,-,ends⟩ := codeLen_some code
    rw [List.drop_drop] at ends
    have skipped := ih (after.mono (start.trans (Nat.le_add_right _ _)))
    obtain ⟨stop,same,following,bounded⟩ := exists_stop after
    obtain ⟨located,apart⟩ := ih following
    simp only [unitsBetween,same]
    by_cases none : cur.offset + cur.scLen ≥ stop
    · rw [if_pos none]
      exact skipped
    rw [if_neg none]
    have width : (subarray stream (cur.offset + cur.scLen) stop).bytes.length = stop - (cur.offset + cur.scLen) := by
      simp only [subarray,List.length_take,List.length_drop]
      omega
    cases header : (subarray stream (cur.offset + cur.scLen) stop).bytes.head? with
    | none => exact skipped
    | some headerByte =>
      have reaches : cur.offset + cur.scLen + (subarray stream (cur.offset + cur.scLen) stop).bytes.length = stop := by omega
      have behind : cur.offset + cur.scLen - 3 = cur.offset + (cur.scLen - 3) := by omega
      refine ⟨List.forall_mem_cons.mpr ⟨⟨⟨?_,?_,⟨?_,?_⟩,?_⟩,?_⟩,skipped.1⟩,List.pairwise_cons.mpr ⟨fun unit member => ?_,apart⟩⟩
      · rw [width]
        rfl
      · exact reaches.le.trans bounded
      · exact three.trans (Nat.le_add_left _ _)
      · rw [← ends,← behind]
        rfl
      · simp [header]
      · exact start.trans (Nat.le_add_right _ _)
      · exact reaches.le.trans (located unit member).2

/-- Framed units come back in order with their types, whatever the start codes in front of them; and the
units of any stream are views of it one behind the other, each right behind the bytes 00 00 01. -/
theorem nal_units_exact :
    (∀ pieces : List (Bool × Nal), (splitNalUnits (pieces.flatMap framed)).map (fun unit => (unit.type,unit.data.bytes)) =
      pieces.map (fun piece => (piece.2.header &&& 0x1f,piece.2.bytes))) ∧
    ∀ stream, (∀ unit ∈ splitNalUnits stream, Located stream unit) ∧
      (splitNalUnits stream).Pairwise
        (fun first second => first.data.byteOffset + first.data.bytes.length ≤ second.data.byteOffset) := by
  refine ⟨splitNalUnits_framed,fun stream => ?_⟩
  obtain ⟨located,apart⟩ := unitsBetween_spec (ordered_findStarts stream 0)
  exact ⟨fun unit member => (located unit member).1,apart⟩

-- an empty unit is left out, and zeros at the end of the stream stay with the last unit
example : splitNalUnits [0,0,0,1,0x67,0,0,1,0,0,1,0x65,0] = [⟨7,⟨4,[0x67]⟩⟩,⟨5,⟨11,[0x65,0]⟩⟩] := by
  simp [splitNalUnits,findStarts,unitsBetween,subarray]
  decide

end Streamhaul.AnnexB
