import Streamhaul.Record
import Streamhaul.StunCodec

/-! What MESSAGE-INTEGRITY vouches for. The decoder and the integrity check walk the
attributes independently; this module says what a message that passes both is made of. -/
namespace Streamhaul

open Tlv (u16At)

namespace StunMessage

/-- The bytes in front of an integrity attribute, with the length field set to end at it. -/
def integrityCovered (raw : Bytes) (miOffset : Nat) : Bytes :=
  setLength (raw.take miOffset) (miOffset + 24 - stunHeaderLen)

/-- What the covered bytes alone say: the message without the integrity attribute. -/
def believed (suite : StunSuite) (covered : Bytes) : Except IceError StunMessage :=
  decode suite (setLength covered (covered.length - stunHeaderLen))

def declaredLen (raw : Bytes) (offset : Nat) : Nat := (u16At raw (offset + 2)).toNat

/-- Everything in the message but the integrity value and a fingerprint is covered. -/
def Covers (suite : StunSuite) (raw key : Bytes) (miOffset : Nat) (m : StunMessage) : Prop :=
  ∃ pre hmac post, m.attributes = pre ++ .messageIntegrity hmac :: post ∧
    (post = [] ∨ ∃ crc, post = [.fingerprint crc]) ∧ (∀ other, .messageIntegrity other ∉ pre) ∧
    hmac = suite.hmacSha1 key (integrityCovered raw miOffset) ∧
    believed suite (integrityCovered raw miOffset) = .ok { m with attributes := pre }

/-- A byte string that decodes, field by field. -/
structure Decoded (suite : StunSuite) (raw : Bytes) (m : StunMessage) : Prop where
  header : stunHeaderLen ≤ raw.length
  topBits : u16At raw 0 &&& 0xc000 = 0
  aligned : u16At raw 2 % 4 = 0
  cookie : UInt32.ofNat (fromBeBytes [raw.getD 4 0,raw.getD 5 0,raw.getD 6 0,raw.getD 7 0]) = magicCookie
  kind : decodeType (u16At raw 0) = .ok (m.class',m.method)
  tid : vectorAt 12 raw 8 = m.transactionId
  body : stunHeaderLen + (u16At raw 2).toNat ≤ raw.length
  attributes : Tlv.Reads (decodeOneAttribute suite m.transactionId)
    ((raw.drop stunHeaderLen).take (u16At raw 2).toNat) m.attributes

variable {attr : StunAttribute} {suite : StunSuite} {tid : TransactionId} {value : Bytes} {m : StunMessage}
  {raw : Bytes}

theorem decode_ok_iff :
    decode suite raw = .ok m ↔ Decoded suite raw m := by
  constructor
  · intro decoded
    unfold decode at decoded
    split at decoded
    · cases decoded
    · next long =>
      dsimp only at decoded
      split at decoded
      · cases decoded
      · next top =>
        split at decoded
        · cases decoded
        · next multiple =>
          split at decoded
          · cases decoded
          · next magic =>
            split at decoded
            · cases decoded
            · next kind =>
              split at decoded
              · cases decoded
              · next short =>
                split at decoded
                · cases decoded
                · next attributes =>
                  cases decoded
                  exact ⟨Nat.not_lt.mp long,not_not.mp top,not_not.mp multiple,not_not.mp magic,kind,rfl,
                    Nat.not_lt.mp short,Tlv.decodeFrom_ok_iff.mp attributes⟩
  · intro decoded
    have attributes : decodeAttributes suite ((raw.drop stunHeaderLen).take (u16At raw 2).toNat) m.transactionId =
        .ok m.attributes := Tlv.decodeFrom_ok_iff.mpr decoded.attributes
    unfold decode
    rw [if_neg (Nat.not_lt.mpr decoded.header)]
    dsimp only
    rw [if_neg (not_not.mpr decoded.topBits),if_neg (not_not.mpr decoded.aligned),if_neg (not_not.mpr decoded.cookie),
      decoded.kind]
    simp only
    rw [if_neg (Nat.not_lt.mpr decoded.body),decoded.tid,attributes]

section Header

variable {raw raw' : Bytes} (same : ∀ i, i < 2 ∨ 4 ≤ i ∧ i < stunHeaderLen → raw'.getD i 0 = raw.getD i 0)

include same

theorem header_type : u16At raw' 0 = u16At raw 0 := by
  rw [u16At,u16At,same 0 (by omega),same 1 (by omega)]

theorem header_tid : vectorAt 12 raw' 8 = vectorAt 12 raw 8 := by
  apply Vector.ext
  intro i bound
  simp only [vectorAt,Vector.getElem_ofFn]
  apply same
  unfold stunHeaderLen
  omega

/-- Another body under the same header. -/
theorem Decoded.rebody {suite : StunSuite} {m : StunMessage} (decoded : Decoded suite raw m) {body : Bytes}
    {attrs : List StunAttribute} (size : raw'.length = stunHeaderLen + body.length)
    (length : (u16At raw' 2).toNat = body.length) (multiple : body.length % 4 = 0)
    (rest : raw'.drop stunHeaderLen = body)
    (reads : Tlv.Reads (decodeOneAttribute suite m.transactionId) body attrs) :
    Decoded suite raw' { m with attributes := attrs } where
  header := by omega
  topBits := by
    rw [header_type same]
    exact decoded.topBits
  aligned := by
    apply UInt16.toNat_inj.mp
    rw [UInt16.toNat_mod,length]
    exact multiple
  cookie := by
    rw [same 4 (by decide),same 5 (by decide),same 6 (by decide),same 7 (by decide)]
    exact decoded.cookie
  kind := by
    rw [header_type same]
    exact decoded.kind
  tid := (header_tid same).trans decoded.tid
  body := by omega
  attributes := by
    rw [rest,length,List.take_length]
    exact reads

end Header

section Length

variable {bytes : Bytes} (n : Nat) (field : 4 ≤ bytes.length)

include field

theorem setLength_eq : setLength bytes n = (bytes.take 2 ++ toBeBytes 2 (min n u16Max)) ++ bytes.drop 4 :=
  if_pos field

theorem length_lengthFront : (bytes.take 2 ++ toBeBytes 2 (min n u16Max)).length = 4 := by
  rw [List.length_append,List.length_take,length_toBeBytes]
  omega

theorem length_setLength : (setLength bytes n).length = bytes.length := by
  rw [setLength_eq n field,List.length_append,length_lengthFront n field,List.length_drop]
  omega

theorem drop_setLength {k : Nat} (beyond : 4 ≤ k) : (setLength bytes n).drop k = bytes.drop k := by
  have front := length_lengthFront n field
  rw [setLength_eq n field,List.drop_append,List.drop_of_length_le (by omega),front,List.nil_append,List.drop_drop]
  congr 1
  omega

theorem getD_setLength {i : Nat} (outside : i < 2 ∨ 4 ≤ i) : (setLength bytes n).getD i 0 = bytes.getD i 0 := by
  rcases outside with before | after
  · have inside : i < (bytes.take 2).length := by
      rw [List.length_take]
      omega
    simp only [List.getD_eq_getElem?_getD]
    rw [setLength_eq n field,List.append_assoc,List.getElem?_append_left inside,List.getElem?_take_of_lt before]
  · have dropped := drop_setLength n field after
    have at' := congrArg (fun rest : Bytes => rest.getD 0 0) dropped
    simpa [List.getD_eq_getElem?_getD] using at'

theorem u16At_setLength : u16At (setLength bytes n) 2 = UInt16.ofNat (min n u16Max) := by
  have two : (bytes.take 2).length = 2 := by
    rw [List.length_take]
    omega
  have skip := Tlv.u16At_append (bytes.take 2) (toBeBytes 2 (min n u16Max) ++ bytes.drop 4) 0
  rw [two] at skip
  rw [setLength_eq n field,List.append_assoc,skip,Tlv.u16At_toBeBytes]

end Length

/-- The covered bytes read alone: the header, and the attributes in front of the integrity attribute. -/
theorem believed_covered {raw before rest : Bytes} {pre : List StunAttribute}
    (decoded : Decoded suite raw m) (split : raw.drop stunHeaderLen = before ++ rest)
    (fits : before.length ≤ u16Max) (aligned : before.length % 4 = 0)
    (reads : Tlv.Reads (decodeOneAttribute suite m.transactionId) before pre) :
    believed suite (integrityCovered raw (stunHeaderLen + before.length)) = .ok { m with attributes := pre } := by
  have header := decoded.header
  have total : raw.length = stunHeaderLen + (before.length + rest.length) := by
    have sizes := congrArg List.length split
    rw [List.length_drop,List.length_append] at sizes
    omega
  have size : (raw.take (stunHeaderLen + before.length)).length = stunHeaderLen + before.length := by
    rw [List.length_take]
    omega
  have field : 4 ≤ (raw.take (stunHeaderLen + before.length)).length := by
    rw [size,stunHeaderLen]
    omega
  have size' := length_setLength (stunHeaderLen + before.length + 24 - stunHeaderLen) field
  have field' : 4 ≤ (integrityCovered raw (stunHeaderLen + before.length)).length := size'.symm ▸ field
  have length : (integrityCovered raw (stunHeaderLen + before.length)).length - stunHeaderLen = before.length := by
    rw [integrityCovered,size',size]
    omega
  have same : ∀ i, i < 2 ∨ 4 ≤ i ∧ i < stunHeaderLen →
      (setLength (integrityCovered raw (stunHeaderLen + before.length)) before.length).getD i 0 = raw.getD i 0 := by
    intro i inside
    have within : i < stunHeaderLen + before.length := by
      unfold stunHeaderLen at inside ⊢
      omega
    rw [getD_setLength _ field' (by omega),integrityCovered,getD_setLength _ field (by omega),
      List.getD_eq_getElem?_getD,List.getD_eq_getElem?_getD,List.getElem?_take_of_lt within]
  have body : (setLength (integrityCovered raw (stunHeaderLen + before.length)) before.length).drop stunHeaderLen =
      before := by
    rw [drop_setLength _ field' (by decide),integrityCovered,drop_setLength _ field (by decide),List.drop_take,
      Nat.add_sub_cancel_left,split,List.take_left]
  apply decode_ok_iff.mpr
  rw [length]
  apply decoded.rebody same _ _ aligned body reads
  · rw [length_setLength _ field',integrityCovered,size',size]
  · rw [u16At_setLength _ field',toNat_lengthField fits]

theorem findAttrOffset_ok {targetType : UInt16} {offset : Nat} (found : findAttrOffset raw targetType = .ok offset) :
    ∃ p, Tlv.findFrom IceError.stunAttrTruncated (.attrNotFound targetType) targetType 0
      ((raw.drop stunHeaderLen).take (u16At raw 2).toNat) = .ok p ∧ offset = stunHeaderLen + p := by
  unfold findAttrOffset at found
  split at found
  · cases found
  · dsimp only at found
    split at found
    · cases found
    · next attrBytes cut =>
      have part := (slice?_eq_some_iff.mp cut).2.2
      rw [Nat.add_sub_cancel_left] at part
      rw [part]
      cases walk : Tlv.findFrom IceError.stunAttrTruncated (.attrNotFound targetType) targetType 0 attrBytes with
      | error e =>
        rw [walk] at found
        cases found
      | ok p =>
        rw [walk] at found
        cases found
        exact ⟨p,rfl,rfl⟩

theorem u16At_of_slice? {bytes : Bytes} {n : UInt16} (cut : slice? bytes 0 2 = some (be16 n)) : u16At bytes 0 = n := by
  have part := (slice?_eq_some_iff.mp cut).2.2
  rw [List.drop_zero,Nat.sub_zero] at part
  rw [← List.take_append_drop 2 bytes,part]
  exact u16At_be16 n _

/-- The trailer behind a 20-byte integrity value, as the check admits it. -/
def Trailer (raw : Bytes) (miOffset : Nat) : Prop :=
  miOffset + 24 < stunHeaderLen + (u16At raw 2).toNat →
    ∃ trailer, slice? raw (miOffset + 24) (stunHeaderLen + (u16At raw 2).toNat) = some trailer ∧
      trailer.length = 8 ∧ u16At trailer 0 = 0x8028

theorem verifyIntegrity_ok {raw key : Bytes} {miOffset : Nat}
    (found : findAttrOffset raw 0x0008 = .ok miOffset) (verified : verifyIntegrity suite raw key = .ok ()) :
    Trailer raw miOffset ∧
      slice? raw (miOffset + 4) (miOffset + 4 + 20) =
        some (suite.hmacSha1 key (integrityCovered raw miOffset)).toList := by
  unfold verifyIntegrity at verified
  rw [found] at verified
  dsimp only at verified
  split at verified
  · cases verified
  · next admitted =>
    split at verified
    · cases verified
    · next covered front =>
      split at verified
      · cases verified
      · next stored value =>
        split at verified
        · next equal =>
          have part := (slice?_eq_some_iff.mp front).2.2
          rw [List.drop_zero,Nat.sub_zero] at part
          refine ⟨?_,?_⟩
          · intro beyond
            obtain ⟨eight,type⟩ := not_not.mp (fun illegal => admitted ⟨beyond,illegal⟩)
            cases cut : slice? raw (miOffset + 24) (stunHeaderLen + (u16At raw 2).toNat) with
            | none =>
              rw [cut] at eight
              cases eight
            | some trailer =>
              rw [cut] at eight type
              exact ⟨trailer,rfl,eight,u16At_of_slice? type⟩
          · rw [value,← equal,← part]
            rfl
        · cases verified

theorem findAttrOffset_of_verified {raw key : Bytes}
    (verified : verifyIntegrity suite raw key = .ok ()) : ∃ miOffset, findAttrOffset raw 0x0008 = .ok miOffset := by
  unfold verifyIntegrity at verified
  split at verified
  · cases verified
  · cases verified
  · next miOffset found => exact ⟨miOffset,found⟩

/-- Where the integrity attribute stands: whole attributes in front of it in the body, and the
rest of the body from it on. -/
theorem first_integrity {miOffset : Nat}
    (decoded : Decoded suite raw m) (found : findAttrOffset raw 0x0008 = .ok miOffset) :
    ∃ before after tail pre attr post, raw.drop stunHeaderLen = before ++ (after ++ tail) ∧
      miOffset = stunHeaderLen + before.length ∧ (u16At raw 2).toNat = before.length + after.length ∧
      Tlv.First (decodeOneAttribute suite m.transactionId) 0x0008 m.attributes before after pre attr post := by
  obtain ⟨p,walk,rfl⟩ := findAttrOffset_ok found
  obtain ⟨before,after,pre,attr,post,split,position,first⟩ := Tlv.reads_first decoded.attributes walk
  have inside := decoded.body
  have size := congrArg List.length split
  rw [List.length_take,List.length_drop,List.length_append] at size
  refine ⟨before,after,(raw.drop stunHeaderLen).drop (u16At raw 2).toNat,pre,attr,post,?_,?_,?_,first⟩
  · rw [← List.append_assoc,← split,List.take_append_drop]
  · rw [position,Nat.zero_add]
  · omega

theorem fixedValue_ok {n : Nat} {type : UInt16} {f : Bytes → StunAttribute}
    (fixed : fixedValue n type value f = .ok attr) : n ≤ value.length ∧ attr = f (value.take n) := by
  unfold fixedValue at fixed
  split at fixed
  · cases fixed
  · next long =>
    cases fixed
    exact ⟨Nat.not_lt.mp long,rfl⟩

theorem attributeTlv_decoded {type : UInt16} (visited : decodeOneAttribute suite tid type value = .ok attr) :
    (attributeTlv attr tid).1 = type := by
  have fixed {n : Nat} {f : Bytes → StunAttribute} (type' : UInt16) (here : type = type')
      (same : ∀ v, (attributeTlv (f v) tid).1 = type') (read : fixedValue n type value f = .ok attr) :
      (attributeTlv attr tid).1 = type := by
    rw [(fixedValue_ok read).2,here]
    exact same _
  unfold decodeOneAttribute at visited
  rcases ite_eq_ok_iff.mp visited with ⟨mapped,visited⟩ | ⟨-,visited⟩
  · generalize decodeMappedAddress value type = read at visited
    cases read <;> cases visited
    exact mapped.symm
  rcases ite_eq_ok_iff.mp visited with ⟨username,visited⟩ | ⟨-,visited⟩
  · split at visited
    · cases visited
    · cases visited
      exact username.symm
  rcases ite_eq_ok_iff.mp visited with ⟨integrity,visited⟩ | ⟨-,visited⟩
  · exact fixed _ integrity (fun _ => rfl) visited
  rcases ite_eq_ok_iff.mp visited with ⟨errorCode,visited⟩ | ⟨-,visited⟩
  · split at visited
    · cases visited
    · cases visited
      exact errorCode.symm
  rcases ite_eq_ok_iff.mp visited with ⟨unknownTypes,visited⟩ | ⟨-,visited⟩
  · split at visited
    · cases visited
    · cases visited
      exact unknownTypes.symm
  rcases ite_eq_ok_iff.mp visited with ⟨xorMapped,visited⟩ | ⟨-,visited⟩
  · generalize decodeXorMappedAddress value tid type = read at visited
    cases read <;> cases visited
    exact xorMapped.symm
  rcases ite_eq_ok_iff.mp visited with ⟨priority,visited⟩ | ⟨-,visited⟩
  · exact fixed _ priority (fun _ => rfl) visited
  rcases ite_eq_ok_iff.mp visited with ⟨useCandidate,visited⟩ | ⟨-,visited⟩
  · cases visited
    exact useCandidate.symm
  rcases ite_eq_ok_iff.mp visited with ⟨software,visited⟩ | ⟨-,visited⟩
  · cases visited
    exact software.symm
  rcases ite_eq_ok_iff.mp visited with ⟨fingerprint,visited⟩ | ⟨-,visited⟩
  · exact fixed _ fingerprint (fun _ => rfl) visited
  rcases ite_eq_ok_iff.mp visited with ⟨controlled,visited⟩ | ⟨-,visited⟩
  · exact fixed _ controlled (fun _ => rfl) visited
  rcases ite_eq_ok_iff.mp visited with ⟨controlling,visited⟩ | ⟨-,visited⟩
  · exact fixed _ controlling (fun _ => rfl) visited
  cases visited
  rfl

theorem decodeOneAttribute_integrity (visited : decodeOneAttribute suite tid 0x0008 value = .ok attr) :
    20 ≤ value.length ∧ ∃ hmac : Vector UInt8 20, attr = .messageIntegrity hmac ∧ hmac.toList = value.take 20 := by
  obtain ⟨long,rfl⟩ := @fixedValue_ok attr value 20 0x0008 (fun v => .messageIntegrity (vectorAt 20 v 0)) visited
  refine ⟨long,_,rfl,?_⟩
  rw [toList_vectorAt (by rw [List.length_take]; omega),List.drop_zero,List.take_take,Nat.min_self]

theorem decodeOneAttribute_fingerprint (visited : decodeOneAttribute suite tid 0x8028 value = .ok attr) :
    4 ≤ value.length ∧ ∃ crc, attr = .fingerprint crc := by
  obtain ⟨long,rfl⟩ :=
    @fixedValue_ok attr value 4 0x8028 (fun v => .fingerprint (UInt32.ofNat (fromBeBytes v))) visited
  exact ⟨long,_,rfl⟩

section Behind

variable {suite : StunSuite} {tid : TransactionId} {rest : Bytes} {post : List StunAttribute}
  (reads : Tlv.Reads (decodeOneAttribute suite tid) rest post)

include reads

theorem reads_nil (empty : rest.length = 0) : post = [] := by
  cases reads with
  | nil => rfl
  | item fits => omega

theorem reads_fingerprint (size : rest.length = 8) (type : u16At rest 0 = 0x8028) : ∃ crc, post = [.fingerprint crc] := by
  cases reads with
  | nil => cases size
  | item fits visited later =>
    rw [type] at visited
    obtain ⟨long,crc,rfl⟩ := decodeOneAttribute_fingerprint visited
    rw [List.length_take] at long
    have padding := Tlv.le_paddedLen (u16At rest 2).toNat
    have nothing := reads_nil later (by rw [List.length_drop]; omega)
    exact ⟨crc,by rw [nothing]⟩

/-- Four bytes are one attribute without a value, which a fingerprint cannot be. -/
theorem reads_bare (size : rest.length = 4) : ∃ attr, post = [attr] ∧ ∀ crc, attr ≠ .fingerprint crc := by
  cases reads with
  | nil => cases size
  | @item _ attr _ fits visited later =>
    have padding := Tlv.le_paddedLen (u16At rest 2).toNat
    have nothing := reads_nil later (by rw [List.length_drop]; omega)
    refine ⟨attr,by rw [nothing],?_⟩
    rintro crc rfl
    have type := attributeTlv_decoded visited
    rw [← type] at visited
    have long := (decodeOneAttribute_fingerprint visited).1
    rw [List.length_take,List.length_drop] at long
    omega

end Behind

/-- What can stand behind the integrity attribute. Another attribute than a fingerprint is read
there exactly when the declared length takes one to four bytes of the trailer. -/
theorem behind_integrity {after : Bytes} {post : List StunAttribute} {len : Nat}
    (fits : 4 + len ≤ after.length) (long : 20 ≤ len)
    (trailer : 24 < after.length → after.length = 32 ∧ u16At (after.drop 24) 0 = 0x8028)
    (later : Tlv.Reads (decodeOneAttribute suite tid) (after.drop (4 + Tlv.paddedLen len)) post) :
    (post = [] ∨ ∃ crc, post = [.fingerprint crc]) ↔ ¬(21 ≤ len ∧ len ≤ 24) := by
  have size := List.length_drop (l := after) (i := 4 + Tlv.paddedLen len)
  by_cases swallowed : 21 ≤ len ∧ len ≤ 24
  · have padded : Tlv.paddedLen len = 24 := by
      unfold Tlv.paddedLen
      omega
    obtain ⟨attr,rfl,other⟩ := reads_bare later (by omega)
    simp [swallowed,other]
  · refine ⟨fun _ => swallowed,fun _ => ?_⟩
    by_cases exact : len = 20
    · subst exact
      rcases Nat.eq_or_lt_of_le (show 24 ≤ after.length from fits) with last | beyond
      · have padded : Tlv.paddedLen 20 = 20 := rfl
        exact .inl (reads_nil later (by omega))
      · obtain ⟨eight,type⟩ := trailer beyond
        have padded : Tlv.paddedLen 20 = 20 := rfl
        exact .inr (reads_fingerprint later (by omega) type)
    · have padded : Tlv.paddedLen len = 28 := by
        unfold Tlv.paddedLen
        omega
      exact .inl (reads_nil later (by omega))

section Layout

variable {raw before after tail : Bytes} (header : stunHeaderLen ≤ raw.length)
  (split : raw.drop stunHeaderLen = before ++ (after ++ tail))

include header split

theorem layout : raw = (raw.take stunHeaderLen ++ before) ++ (after ++ tail) ∧
    (raw.take stunHeaderLen ++ before).length = stunHeaderLen + before.length := by
  constructor
  · rw [List.append_assoc,← split,List.take_append_drop]
  · rw [List.length_append,List.length_take,Nat.min_eq_left header]

theorem drop_layout (k : Nat) : raw.drop (stunHeaderLen + before.length + k) = (after ++ tail).drop k := by
  obtain ⟨whole,size⟩ := layout header split
  rw [← size,← List.drop_drop]
  nth_rewrite 2 [whole]
  rw [List.drop_left]

theorem declaredLen_layout (long : 4 ≤ after.length) :
    declaredLen raw (stunHeaderLen + before.length) = (u16At after 2).toNat := by
  obtain ⟨whole,size⟩ := layout header split
  have behind := Tlv.u16At_append (raw.take stunHeaderLen ++ before) (after ++ tail) 2
  rw [← whole,size] at behind
  have inside := @Tlv.u16At_take_append (after ++ tail) [] after.length 2 long (by simp)
  rw [List.take_left,List.append_nil] at inside
  rw [declaredLen,behind,inside]

theorem trailer_layout
    (size : (u16At raw 2).toNat = before.length + after.length) (trailer : Trailer raw (stunHeaderLen + before.length))
    (beyond : 24 < after.length) : after.length = 32 ∧ u16At (after.drop 24) 0 = 0x8028 := by
  obtain ⟨rest,cut,eight,type⟩ := trailer (by omega)
  obtain ⟨_,_,part⟩ := slice?_eq_some_iff.mp cut
  have here : after.drop 24 = rest := by
    have length : stunHeaderLen + (u16At raw 2).toNat - (stunHeaderLen + before.length + 24) = (after.drop 24).length := by
      rw [List.length_drop]
      omega
    rw [← part,drop_layout header split,length,List.drop_append_of_le_length (by omega),List.take_left]
  rw [here]
  refine ⟨?_,type⟩
  rw [← here,List.length_drop] at eight
  omega

theorem stored_layout {len : Nat} (fits : 4 + len ≤ after.length) (long : 20 ≤ len) {stored : Bytes}
    (cut : slice? raw (stunHeaderLen + before.length + 4) (stunHeaderLen + before.length + 4 + 20) = some stored) :
    ((after.drop 4).take len).take 20 = stored := by
  obtain ⟨_,_,part⟩ := slice?_eq_some_iff.mp cut
  rw [Nat.add_sub_cancel_left,drop_layout header split,List.drop_append_of_le_length (by omega),
    List.take_append_of_le_length (by rw [List.length_drop]; omega)] at part
  rw [List.take_take,Nat.min_eq_left long,part]

end Layout

/-- A list has one split at its first element with a property. -/
theorem split_unique {α : Type} {p : α → Prop} {pre pre' post post' : List α} {a a' : α}
    (equal : pre ++ a :: post = pre' ++ a' :: post') (clean : ∀ x ∈ pre, ¬p x) (clean' : ∀ x ∈ pre', ¬p x)
    (here : p a) (here' : p a') : pre = pre' ∧ post = post' := by
  induction pre generalizing pre' with
  | nil =>
    cases pre' with
    | nil =>
      cases equal
      exact ⟨rfl,rfl⟩
    | cons x rest =>
      cases equal
      exact absurd here (clean' _ List.mem_cons_self)
  | cons x rest ih =>
    cases pre' with
    | nil =>
      cases equal
      exact absurd here' (clean _ List.mem_cons_self)
    | cons y rest' =>
      obtain ⟨rfl,tails⟩ := List.cons.inj equal
      obtain ⟨rfl,rfl⟩ := ih tails (fun z member => clean z (List.mem_cons_of_mem _ member))
        (fun z member => clean' z (List.mem_cons_of_mem _ member))
      exact ⟨rfl,rfl⟩

end StunMessage

namespace Transparent

open StunMessage

def bareCheck : StunMessage := newBindingRequest (Vector.replicate 12 7)

def checkKey : Bytes := [1,2,3]

def checkMac : Vector UInt8 20 :=
  stun.hmacSha1 checkKey (integrityCovered (bareCheck.encodeWithIntegrity stun checkKey) 20)

/-- A check with a name and a priority. -/
def namedCheck : StunMessage := { bareCheck with attributes := [.username ['a',':','b'],.priority 9] }

def namedMac : Vector UInt8 20 :=
  stun.hmacSha1 checkKey (integrityCovered (namedCheck.encodeWithIntegrity stun checkKey) 36)

/-- A signed check in flight: the integrity length becomes 24, and the last four bytes of the
fingerprint USE-CANDIDATE. -/
def tampered : Bytes :=
  ((bareCheck.encodeWithIntegrityAndFingerprint stun checkKey).set 23 24).take 48 ++ [0x00,0x25,0x00,0x00]

end Transparent

namespace StunMessage

open Transparent

/-- A message that decodes and passes the integrity check is covered by it, up to the integrity
value and a fingerprint, exactly when its integrity attribute does not declare 21 to 24 bytes. -/
theorem integrity_covers_iff (suite : StunSuite) (raw key : Bytes) (m : StunMessage)
    (accepted : decode suite raw = .ok m) (verified : verifyIntegrity suite raw key = .ok ()) :
    ∃ miOffset, findAttrOffset raw 0x0008 = .ok miOffset ∧
      (Covers suite raw key miOffset m ↔ ¬(21 ≤ declaredLen raw miOffset ∧ declaredLen raw miOffset ≤ 24)) := by
  have decoded := decode_ok_iff.mp accepted
  obtain ⟨miOffset,found⟩ := findAttrOffset_of_verified verified
  refine ⟨miOffset,found,?_⟩
  obtain ⟨trailer,stored⟩ := verifyIntegrity_ok found verified
  obtain ⟨before,after,tail,pre,attr,post,split,rfl,size,first⟩ := first_integrity decoded found
  obtain ⟨long,hmac,rfl,value⟩ := decodeOneAttribute_integrity first.visited
  have whole := first.fits
  rw [List.length_take,List.length_drop] at long
  have declared := declaredLen_layout decoded.header split (by omega)
  have signed : hmac = suite.hmacSha1 key (integrityCovered raw (stunHeaderLen + before.length)) := by
    apply Vector.toList_inj.mp
    rw [value,stored_layout decoded.header split whole (by omega) stored]
  have fits : before.length ≤ u16Max := by
    have bound := (u16At raw 2).toNat_lt
    unfold u16Max
    omega
  have clean : ∀ x ∈ pre, ¬∃ other, x = .messageIntegrity other := by
    rintro x member ⟨other,rfl⟩
    obtain ⟨type,_,different,visited⟩ := first.others _ member
    exact different (attributeTlv_decoded visited).symm
  have behind := behind_integrity whole (by omega) (trailer_layout decoded.header split size trailer) first.later
  rw [declared,← behind]
  constructor
  · rintro ⟨pre',hmac',post',split',covered,clean',_,_⟩
    obtain ⟨_,rfl⟩ := split_unique (first.split.symm.trans split') clean
      (by rintro x member ⟨other,rfl⟩; exact clean' other member) ⟨hmac,rfl⟩ ⟨hmac',rfl⟩
    exact covered
  · intro covered
    exact ⟨pre,hmac,post,first.split,covered,fun other member => clean _ member ⟨other,rfl⟩,signed,
      believed_covered decoded split fits first.aligned first.earlier⟩

/-- A check as the encoder signs it is covered, with the attributes in front of the integrity value. -/
theorem signed_check_covered :
    findAttrOffset (namedCheck.encodeWithIntegrity stun checkKey) 0x0008 = .ok 36 ∧
    Covers stun (namedCheck.encodeWithIntegrity stun checkKey) checkKey 36
      { namedCheck with attributes := namedCheck.attributes ++ [.messageIntegrity namedMac] } := by
  have here : findAttrOffset (namedCheck.encodeWithIntegrity stun checkKey) 0x0008 = .ok 36 := by decide +kernel
  obtain ⟨miOffset,found,covers⟩ := integrity_covers_iff stun (namedCheck.encodeWithIntegrity stun checkKey) checkKey
    { namedCheck with attributes := namedCheck.attributes ++ [.messageIntegrity namedMac] } (by decide +kernel)
    (by decide +kernel)
  obtain rfl := Except.ok.inj (here.symm.trans found)
  exact ⟨here,covers.mpr (by decide +kernel)⟩

/-- The tampered check passes the integrity check, and USE-CANDIDATE is read behind the integrity value. -/
theorem use_candidate_unauthenticated :
    verifyIntegrity stun tampered checkKey = .ok () ∧ findAttrOffset tampered 0x0008 = .ok 20 ∧
    decode stun tampered = .ok { bareCheck with attributes := [.messageIntegrity checkMac,.useCandidate] } ∧
    ¬Covers stun tampered checkKey 20 { bareCheck with attributes := [.messageIntegrity checkMac,.useCandidate] } := by
  refine ⟨by decide +kernel,by decide +kernel,by decide +kernel,?_⟩
  rintro ⟨pre,hmac,post,split,covered,clean,_,_⟩
  cases pre with
  | nil =>
    obtain ⟨_,rfl⟩ := List.cons.inj split
    rcases covered with other | ⟨crc,other⟩
    · cases other
    · cases other
  | cons first rest =>
    obtain ⟨rfl,_⟩ := List.cons.inj split
    exact clean checkMac List.mem_cons_self

end StunMessage

end Streamhaul
