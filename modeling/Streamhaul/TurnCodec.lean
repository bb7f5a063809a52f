import Streamhaul.StunCodec
import Streamhaul.Turn

/-! TURN messages on the wire: encoded messages decode to themselves, signed ones pass the
integrity check, and ChannelData frames give their payload back as long as its length fits
the header. -/
namespace Streamhaul

open Tlv (u16At)

namespace Turn

/-- The type word: the method's bits with the class bits set between them. -/
def typeWord (method : UInt16) (class' : UInt8) : UInt16 :=
  let c1 : UInt16 := ((class' >>> 1) &&& 1).toUInt16
  let c0 : UInt16 := (class' &&& 1).toUInt16
  let mBits := ((method &&& 0xf80) <<< 2) ||| ((method &&& 0x070) <<< 1) ||| (method &&& 0x00f)
  mBits ||| (c1 <<< 8) ||| (c0 <<< 4)

theorem buildHeader_eq (method : UInt16) (class' : UInt8) (tid : TransactionId) (len : Nat) :
    buildHeader method class' tid len = stunHeader (typeWord method class') tid len := rfl

theorem getElem_of_toNat_lt {w k : Nat} {x : BitVec w} (small : x.toNat < 2 ^ k) {i : Nat} (bound : i < w)
    (high : k ≤ i) : x[i] = false :=
  Nat.testBit_lt_two_pow (small.trans_le (Nat.pow_le_pow_right (by omega) high))

theorem toBitVec_typeWord (method : UInt16) (class' : UInt8) : (typeWord method class').toBitVec =
    (method.toBitVec &&& 0xf80#16) <<< 2 ||| (method.toBitVec &&& 0x070#16) <<< 1 ||| (method.toBitVec &&& 0x00f#16) |||
      ((class'.toBitVec >>> 1) &&& 1#8).setWidth 16 <<< 8 ||| (class'.toBitVec &&& 1#8).setWidth 16 <<< 4 := rfl

theorem typeWord_topBits (method : UInt16) (class' : UInt8) : typeWord method class' &&& 0xc000 = 0 := by
  apply UInt16.toBitVec_inj.mp
  change (typeWord method class').toBitVec &&& 0xc000#16 = 0#16
  rw [toBitVec_typeWord]
  apply BitVec.eq_of_getLsbD_eq
  intro i bound
  interval_cases i <;> simp

theorem typeWord_method {method : UInt16} (small : method < 4096) (class' : UInt8) :
    ((typeWord method class' >>> (2 : UInt16)) &&& 0xf80) ||| ((typeWord method class' >>> (1 : UInt16)) &&& 0x070) |||
      (typeWord method class' &&& 0x00f) = method := by
  have bits : method.toBitVec.toNat < 2 ^ 12 := UInt16.lt_iff_toNat_lt.mp small
  apply UInt16.toBitVec_inj.mp
  change (typeWord method class').toBitVec >>> 2 &&& 0xf80#16 ||| (typeWord method class').toBitVec >>> 1 &&& 0x070#16 |||
    (typeWord method class').toBitVec &&& 0x00f#16 = _
  rw [toBitVec_typeWord]
  apply BitVec.eq_of_getLsbD_eq
  intro i bound
  interval_cases i <;> simp [getElem_of_toNat_lt bits]

theorem typeWord_class (method : UInt16) {class' : UInt8} (small : class' < 4) :
    ((((typeWord method class' >>> (8 : UInt16)) &&& 0x01) <<< (1 : UInt16)) |||
      ((typeWord method class' >>> (4 : UInt16)) &&& 0x01)).toUInt8 = class' := by
  have bits : class'.toBitVec.toNat < 2 ^ 2 := UInt8.lt_iff_toNat_lt.mp small
  apply UInt8.toBitVec_inj.mp
  change (((typeWord method class').toBitVec >>> 8 &&& 1#16) <<< 1 |||
    (typeWord method class').toBitVec >>> 4 &&& 1#16).setWidth 8 = _
  rw [toBitVec_typeWord]
  apply BitVec.eq_of_getLsbD_eq
  intro i bound
  interval_cases i <;> simp [getElem_of_toNat_lt bits]

def knownTypes : List UInt16 :=
  [0x0016,0x0012,0x0020,0x000d,0x000c,0x0013,0x0014,0x0015,0x0009,0x0019,0x0006,0x0008]

end Turn

/-- What the decoder gives back unchanged. -/
def TurnAttr.Plain : TurnAttr → Prop
  | .xorRelayedAddress addr | .xorPeerAddress addr | .xorMappedAddress addr => addr.Plain
  | .errorCode code _ => code < 25600
  | .unknown attrType _ => attrType ∉ Turn.knownTypes
  | _ => True

namespace Turn

theorem dxorAddr_xorAddr {addr : SocketAddr} (plain : addr.Plain) (tid : TransactionId) (attrType : UInt16) :
    dxorAddr (xorAddr addr tid) tid attrType = .ok addr :=
  decodeXorMappedAddress_encode plain tid attrType

theorem decodeOneAttr_attrTlv (suite : StunSuite) (tid : TransactionId) {attr : TurnAttr} (plain : attr.Plain) :
    decodeOneAttr suite tid (attrTlv attr tid).1 (attrTlv attr tid).2 = .ok attr := by
  cases attr with
  | xorRelayedAddress addr | xorPeerAddress addr | xorMappedAddress addr =>
    simp [decodeOneAttr,attrTlv,dxorAddr_xorAddr plain,Except.map]
  | errorCode code reason =>
    have long : ¬reason.asBytes.length + 1 + 1 + 1 + 1 < 4 := by omega
    simp [decodeOneAttr,attrTlv,atLeast,fromUtf8Lossy_asBytes,errorCode_split plain,long]
  | unknown attrType value =>
    simp only [TurnAttr.Plain,knownTypes,List.mem_cons,List.not_mem_nil,not_or,or_false] at plain
    simp [decodeOneAttr,attrTlv,plain]
  | channelNumber channel => simp [decodeOneAttr,attrTlv,atLeast,u16At_be16]
  | messageIntegrity hmac => simp [decodeOneAttr,attrTlv,atLeast,vectorAt_toList]
  | lifetime | data | realm | nonce | requestedTransport | username =>
    simp [decodeOneAttr,attrTlv,atLeast,fromUtf8Lossy_asBytes,List.take_of_length_le]

theorem encodeAttrs_eq (attrs : List TurnAttr) (tid : TransactionId) :
    encodeAttrs attrs tid = Tlv.encode (attrs.map (attrTlv · tid)) := by
  simp only [encodeAttrs,Tlv.encode,List.flatMap_map]

theorem decodeAttrs_encodeAttrs (suite : StunSuite) (tid : TransactionId) {attrs : List TurnAttr}
    (plain : ∀ attr ∈ attrs, attr.Plain) (fits : (encodeAttrs attrs tid).length ≤ u16Max) :
    decodeAttrs suite (encodeAttrs attrs tid) tid = .ok attrs := by
  rw [encodeAttrs_eq] at fits ⊢
  apply Tlv.decodeFrom_encode
  · exact fun i member => (Tlv.length_value_le member).trans fits
  · rw [List.forall₂_map_left_iff,List.forall₂_same]
    exact fun attr member => decodeOneAttr_attrTlv suite tid (plain attr member)

theorem length_encodeAttrs_mod (attrs : List TurnAttr) (tid : TransactionId) : (encodeAttrs attrs tid).length % 4 = 0 := by
  rw [encodeAttrs_eq]
  exact Tlv.length_encode_mod _

theorem attrTlv_ne_integrity {attr : TurnAttr} (plain : attr.Plain) (unsigned : ∀ hmac, attr ≠ .messageIntegrity hmac)
    (tid : TransactionId) : (attrTlv attr tid).1 ≠ 0x0008 := by
  cases attr with
  | messageIntegrity hmac => exact absurd rfl (unsigned hmac)
  | unknown attrType value =>
    rintro (known : attrType = 0x0008)
    apply plain
    rw [known]
    decide
  | _ => simp only [attrTlv]; decide

end Turn

namespace TurnMessage

def attrBody (msg : TurnMessage) : Bytes := Turn.encodeAttrs msg.attrs msg.transactionId

variable (suite : StunSuite) (msg : TurnMessage) (ltKey : Bytes)

theorem encode_eq : msg.encode =
    stunHeader (Turn.typeWord msg.method msg.class') msg.transactionId msg.attrBody.length ++ msg.attrBody := rfl

theorem decode_encode (method : msg.method < 4096) (class' : msg.class' < 4) (plain : ∀ attr ∈ msg.attrs, attr.Plain)
    (fits : msg.attrBody.length ≤ u16Max) : decode suite msg.encode = .ok msg := by
  have inner : (msg.encode.drop stunHeaderLen).take msg.attrBody.length = msg.attrBody := by
    rw [encode_eq,List.drop_left' (length_stunHeader _ _ _),List.take_length]
  have size : msg.encode.length = stunHeaderLen + msg.attrBody.length := by
    rw [encode_eq,List.length_append,length_stunHeader]
  have long : ¬msg.encode.length < stunHeaderLen := by omega
  have whole : ¬msg.encode.length < stunHeaderLen + msg.attrBody.length := by omega
  have type : u16At msg.encode 0 = Turn.typeWord msg.method msg.class' := stunHeader_type _ _ _ _
  have length : u16At msg.encode 2 = UInt16.ofNat (min msg.attrBody.length u16Max) := stunHeader_length _ _ _ _
  have tid : vectorAt 12 msg.encode 8 = msg.transactionId := stunHeader_tid _ _ _ _
  have cookie := stunHeader_cookie _ _ _ _ msg.encode (encode_eq msg)
  have attrs : Turn.decodeAttrs suite msg.attrBody msg.transactionId = .ok msg.attrs :=
    Turn.decodeAttrs_encodeAttrs suite msg.transactionId plain fits
  have aligned := aligned_lengthField fits (Turn.length_encodeAttrs_mod _ _)
  simp only [decode,long,if_false,type,length,tid,cookie,ofNat_fromBeBytes_be32,Turn.typeWord_topBits,aligned,
    ne_eq,not_true_eq_false,Turn.typeWord_method method,Turn.typeWord_class _ class',toNat_lengthField fits,whole,inner,
    attrs]

def covered : Bytes :=
  stunHeader (Turn.typeWord msg.method msg.class') msg.transactionId (msg.attrBody.length + 24) ++ msg.attrBody

def integrity : Vector UInt8 20 := suite.hmacSha1 ltKey msg.covered

def signed : TurnMessage :=
  { msg with attrs := msg.attrs ++ [.messageIntegrity (msg.integrity suite ltKey)] }

theorem attrBody_signed : (msg.signed suite ltKey).attrBody =
    msg.attrBody ++ Tlv.item 0x0008 (msg.integrity suite ltKey).toList := by
  simp [attrBody,signed,Turn.encodeAttrs,Turn.attrTlv]

theorem length_attrBody_signed : (msg.signed suite ltKey).attrBody.length = msg.attrBody.length + 24 := by
  rw [attrBody_signed,List.length_append,item_integrity]
  simp

theorem encodeWithIntegrity_eq : msg.encodeWithIntegrity suite ltKey = (msg.signed suite ltKey).encode := by
  have header : (msg.signed suite ltKey).encode = stunHeader (Turn.typeWord msg.method msg.class') msg.transactionId
      (msg.signed suite ltKey).attrBody.length ++ (msg.signed suite ltKey).attrBody := rfl
  rw [header,length_attrBody_signed,attrBody_signed,item_integrity]
  simp only [encodeWithIntegrity,Turn.buildHeader_eq,integrity,covered,attrBody,List.append_assoc]

theorem verifyIntegrity_signed (plain : ∀ attr ∈ msg.attrs, attr.Plain)
    (unsigned : ∀ attr ∈ msg.attrs, ∀ hmac, attr ≠ .messageIntegrity hmac)
    (fits : (msg.signed suite ltKey).attrBody.length ≤ u16Max) :
    verifyIntegrity suite (msg.encodeWithIntegrity suite ltKey) ltKey = .ok () := by
  have items : msg.attrBody = Tlv.encode (msg.attrs.map (Turn.attrTlv · msg.transactionId)) := Turn.encodeAttrs_eq _ _
  have whole : (msg.signed suite ltKey).attrBody =
      msg.attrBody ++ (Tlv.item 0x0008 (msg.integrity suite ltKey).toList ++ []) := by
    rw [attrBody_signed,List.append_nil]
  have others : ∀ i ∈ msg.attrs.map (Turn.attrTlv · msg.transactionId), i.1 ≠ 0x0008 := by
    intro i member
    obtain ⟨attr,here,rfl⟩ := List.mem_map.mp member
    exact Turn.attrTlv_ne_integrity (plain attr here) (unsigned attr here) _
  have found : Turn.findAttr (msg.signed suite ltKey).encode 0x0008 = .ok (stunHeaderLen + msg.attrBody.length) := by
    rw [items]
    exact findAttrWith_framed .integrityMismatch (Turn.typeWord msg.method msg.class') 0x0008 msg.transactionId
      (whole.trans (by rw [items])) fits others
  have checked := integrityAt_framed suite ltKey (Turn.typeWord msg.method msg.class') msg.transactionId whole fits (.inl rfl)
  rw [encodeWithIntegrity_eq]
  simp only [verifyIntegrity,found]
  exact checked.trans (if_pos rfl)

/-- Decoding inverts both encoders, and a signed message passes the integrity check. -/
theorem turn_codec_round_trip (suite : StunSuite) (m : TurnMessage) (method : m.method < 4096) (class' : m.class' < 4)
    (plain : ∀ attr ∈ m.attrs, attr.Plain) (fits : (Turn.encodeAttrs m.attrs m.transactionId).length + 24 ≤ 65532) :
    decode suite m.encode = .ok m ∧
    ((∀ attr ∈ m.attrs, ∀ hmac, attr ≠ .messageIntegrity hmac) → ∀ ltKey,
      decode suite (m.encodeWithIntegrity suite ltKey) =
        .ok { m with attrs := m.attrs ++ [.messageIntegrity (m.integrity suite ltKey)] } ∧
      verifyIntegrity suite (m.encodeWithIntegrity suite ltKey) ltKey = .ok ()) := by
  have room : m.attrBody.length + 24 ≤ u16Max := fits.trans (by simp [u16Max])
  refine ⟨decode_encode suite m method class' plain (by omega),?_⟩
  intro unsigned ltKey
  have room' : (m.signed suite ltKey).attrBody.length ≤ u16Max := by
    rw [length_attrBody_signed]
    exact room
  have plain' : ∀ attr ∈ (m.signed suite ltKey).attrs, attr.Plain := by
    intro attr member
    rcases List.mem_append.mp member with before | last
    · exact plain attr before
    · cases List.mem_singleton.mp last
      trivial
  refine ⟨?_,verifyIntegrity_signed suite m ltKey plain unsigned room'⟩
  rw [encodeWithIntegrity_eq]
  exact decode_encode suite (m.signed suite ltKey) method class' plain' room'

/-- A Data indication, signed with the front of key and message. -/
def indication : TurnMessage :=
  ⟨methodData,1,Vector.replicate 12 7,
    [.xorPeerAddress (.v6 (Vector.replicate 16 9) 4711 0 0),.data [1,2,3],.errorCode 438 [],.unknown 0x7777 [1]]⟩

theorem indication_round_trip :
    decode Transparent.stun indication.encode = .ok indication ∧
    decode Transparent.stun (indication.encodeWithIntegrity Transparent.stun [1,2,3]) =
      .ok (indication.signed Transparent.stun [1,2,3]) := by
  have plain : ∀ attr ∈ indication.attrs, attr.Plain := by
    simp [indication,TurnAttr.Plain,SocketAddr.Plain,Turn.knownTypes]
  obtain ⟨bare,credentials⟩ := turn_codec_round_trip Transparent.stun indication (by decide) (by decide) plain
    (by decide +kernel)
  exact ⟨bare,(credentials (by simp [indication]) [1,2,3]).1⟩

end TurnMessage

namespace TurnClient

def ValidChannel (channel : UInt16) : Prop := channelMin ≤ channel ∧ channel ≤ channelMax

instance (channel : UInt16) : Decidable (ValidChannel channel) := inferInstanceAs (Decidable (_ ∧ _))

theorem buildChannelData_ok_iff {channel : UInt16} {data frame : Bytes} :
    buildChannelData channel data = .ok frame ↔ ValidChannel channel ∧ frame = Tlv.item channel data := by
  by_cases valid : ValidChannel channel
  · have built : buildChannelData channel data = .ok (Tlv.item channel data) := if_neg (not_not.mpr valid)
    simp [built,valid,eq_comm]
  · have refused : buildChannelData channel data = .error (.checkFailed ("invalid channel " ++ hexChannel channel)) :=
      if_pos valid
    simp [refused,valid]

/-- The decoder takes what the length field announces: at most the first 65535 bytes. -/
theorem decodeChannelData_item (channel : UInt16) (data tail : Bytes) :
    decodeChannelData (Tlv.item channel data ++ tail) = .ok (channel,data.take u16Max) := by
  let header : Bytes := toBeBytes 2 channel.toNat ++ toBeBytes 2 (min data.length u16Max)
  let rest := data.drop u16Max ++ List.replicate ((4 - data.length % 4) % 4) 0 ++ tail
  have split : Tlv.item channel data ++ tail = header ++ (data.take u16Max ++ rest) := by
    simp only [Tlv.item,header,rest,List.append_assoc]
    rw [← List.append_assoc (data.take u16Max),List.take_append_drop]
  have size : (data.take u16Max).length = min data.length u16Max := by rw [List.length_take,Nat.min_comm]
  have length : (u16At (Tlv.item channel data ++ tail) 2).toNat = (data.take u16Max).length := by
    have skip := Tlv.u16At_append (toBeBytes 2 channel.toNat)
      (toBeBytes 2 (min data.length u16Max) ++ (data.take u16Max ++ rest)) 0
    have field : u16At (Tlv.item channel data ++ tail) 2 = UInt16.ofNat (min data.length u16Max) := by
      rw [split]
      simp only [header,List.append_assoc]
      exact skip.trans (Tlv.u16At_toBeBytes _ _)
    have small : min data.length u16Max < 2 ^ 16 := Nat.lt_succ_of_le (Nat.min_le_right _ _)
    rw [field,size,UInt16.toNat_ofNat',Nat.mod_eq_of_lt small]
  have cut := slice?_append header (data.take u16Max) rest
  have four : header.length = channelHdr := rfl
  have total : (Tlv.item channel data ++ tail).length = channelHdr + ((data.take u16Max).length + rest.length) := by
    rw [split,List.length_append,four,List.length_append]
  rw [four,← split] at cut
  have long : ¬(Tlv.item channel data ++ tail).length < channelHdr := by omega
  have whole : ¬(Tlv.item channel data ++ tail).length < channelHdr + (data.take u16Max).length := by omega
  simp only [decodeChannelData,long,if_false,Tlv.u16At_item_type,length,whole,cut]

/-- ChannelData comes back whole exactly when its length fits the 16 bits of the header. -/
theorem channelData_whole_iff (channel : UInt16) (data : Bytes) :
    (∀ frame, buildChannelData channel data = .ok frame → frame.length % 4 = 0) ∧
    ((∀ frame, buildChannelData channel data = .ok frame →
        ∀ tail, decodeChannelData (frame ++ tail) = .ok (channel,data)) ↔
      (channelMin ≤ channel ∧ channel ≤ channelMax → data.length ≤ 65535)) := by
  refine ⟨?_,?_,?_⟩
  · intro frame built
    obtain ⟨_,rfl⟩ := buildChannelData_ok_iff.mp built
    exact Tlv.length_item_mod _ _
  · intro returned valid
    have decoded := returned _ (buildChannelData_ok_iff.mpr ⟨valid,rfl⟩) []
    rw [decodeChannelData_item] at decoded
    have same : data.take u16Max = data := (Prod.mk.inj (Except.ok.inj decoded)).2
    exact List.take_eq_self_iff data |>.mp same
  · intro fits frame built tail
    obtain ⟨valid,rfl⟩ := buildChannelData_ok_iff.mp built
    have whole : data.take u16Max = data := List.take_of_length_le (fits valid)
    rw [decodeChannelData_item,whole]

theorem decodeChannelData_cut {channel : UInt16} {data : Bytes} (full : data.length = u16Max) (lost : Bytes) :
    decodeChannelData (Tlv.item channel (data ++ lost)) = .ok (channel,data) := by
  have decoded := decodeChannelData_item channel (data ++ lost) []
  rwa [List.append_nil,List.take_left' full] at decoded

/-- The last byte of a payload of 65536 bytes is lost without an error. -/
theorem channelData_loses_byte : ∃ frame,
    buildChannelData 0x4000 (List.replicate 65535 0 ++ [1]) = .ok frame ∧
    decodeChannelData frame = .ok (0x4000,List.replicate 65535 0) :=
  ⟨_,buildChannelData_ok_iff.mpr ⟨by decide,rfl⟩,decodeChannelData_cut List.length_replicate [1]⟩

end TurnClient

end Streamhaul
