import Streamhaul.StunFrame

/-! Encoded STUN messages decode to themselves, and a signed message passes the integrity
and fingerprint checks under the key that signed it. -/
namespace Streamhaul

open Tlv (u16At)

theorem buildHeader_eq (class' : StunClass) (method : StunMethod) (tid : TransactionId) (len : Nat) :
    buildHeader class' method tid len = stunHeader (encodeType class' method) tid len := rfl

theorem decodeType_encodeType (class' : StunClass) (method : StunMethod) :
    decodeType (encodeType class' method) = .ok (class',method) := by
  cases method
  cases class' <;> decide

theorem encodeType_topBits (class' : StunClass) (method : StunMethod) :
    encodeType class' method &&& 0xc000 = 0 := by
  cases method
  cases class' <;> decide

theorem decode_framed (suite : StunSuite) (class' : StunClass) (method : StunMethod) (tid : TransactionId)
    (body tail : Bytes) (fits : body.length ≤ u16Max) (aligned : body.length % 4 = 0) :
    StunMessage.decode suite (stunHeader (encodeType class' method) tid body.length ++ (body ++ tail)) =
      match decodeAttributes suite body tid with
      | .error e => .error e
      | .ok attributes => .ok ⟨class',method,tid,attributes⟩ := by
  have inner : ((stunHeader (encodeType class' method) tid body.length ++ (body ++ tail)).drop stunHeaderLen).take
      body.length = body := by
    rw [← length_stunHeader (encodeType class' method) tid body.length,List.drop_left,List.take_left]
  have long : ¬(stunHeader (encodeType class' method) tid body.length ++ (body ++ tail)).length < stunHeaderLen := by
    simp
  have whole : ¬(stunHeader (encodeType class' method) tid body.length ++ (body ++ tail)).length <
      stunHeaderLen + body.length := by
    simp only [List.length_append,length_stunHeader]
    omega
  cases attributes : decodeAttributes suite body tid <;>
    simp only [StunMessage.decode,stunHeader_type,stunHeader_length,stunHeader_tid,toNat_lengthField fits,inner,
      stunHeader_cookie _ tid body.length (body ++ tail) _ rfl,ofNat_fromBeBytes_be32,encodeType_topBits,
      decodeType_encodeType,aligned_lengthField fits aligned,long,whole,if_false,ne_eq,not_true_eq_false,attributes]

/-- The length field of an oversized body saturates at 65535, which no decoder takes. -/
theorem decode_oversized (suite : StunSuite) (class' : StunClass) (method : StunMethod) (tid : TransactionId)
    (body : Bytes) (len : Nat) (exceeds : u16Max < len) :
    StunMessage.decode suite (stunHeader (encodeType class' method) tid len ++ body) =
      .error (.messageLengthNotAligned 65535) := by
  have size : UInt16.ofNat (min len u16Max) = 65535 := by
    rw [Nat.min_eq_right exceeds.le]
    rfl
  have long : ¬(stunHeader (encodeType class' method) tid len ++ body).length < stunHeaderLen := by simp
  simp only [StunMessage.decode,stunHeader_type,stunHeader_length,size,long,if_false,ne_eq,
    encodeType_topBits,not_true_eq_false]
  apply if_pos
  decide

/-! Attributes. -/

/-- What the decoder gives back unchanged: IPv6 addresses without flow and scope, error codes
whose class fits a byte, unknown attributes of a type that is unknown. -/
def SocketAddr.Plain : SocketAddr → Prop
  | .v4 _ _ => True
  | .v6 _ _ flowinfo scopeId => flowinfo = 0 ∧ scopeId = 0

def knownTypes : List UInt16 :=
  [0x0001,0x0006,0x0008,0x0009,0x000a,0x0020,0x0024,0x0025,0x8022,0x8028,0x8029,0x802a]

def StunAttribute.Plain : StunAttribute → Prop
  | .mappedAddress addr | .xorMappedAddress addr => addr.Plain
  | .errorCode code _ => code < 25600
  | .unknown attrType _ => attrType ∉ knownTypes
  | _ => True

theorem fromUtf8Lossy_asBytes (suite : StunSuite) (s : Text) : fromUtf8Lossy suite s.asBytes = s := by
  simp [fromUtf8Lossy]

theorem u16Chunks_flatMap (types : List UInt16) : u16Chunks (types.flatMap be16) = types := by
  induction types with
  | nil => rfl
  | cons t rest ih =>
    have pair : ∃ a b, be16 t = [a,b] := ⟨_,_,rfl⟩
    obtain ⟨a,b,bytes⟩ := pair
    rw [List.flatMap_cons,bytes,List.cons_append,List.cons_append,List.nil_append,u16Chunks,← bytes,ih,
      ofNat_fromBeBytes_be16]

theorem zipWith_xor_cancel {n : Nat} (v mask : Vector UInt8 n) :
    Vector.zipWith (· ^^^ ·) (Vector.zipWith (· ^^^ ·) v mask) mask = v := by
  apply Vector.ext
  intro i bound
  simp only [Vector.getElem_zipWith,UInt8.xor_assoc,UInt8.xor_self,UInt8.xor_zero]

/-- Both address codecs, for any masks. -/
theorem decodeAddress_v4 (portXor : UInt16) (v4Xor : UInt32) (v6Xor : Vector UInt8 16) (ip : UInt32)
    (port attrType : UInt16) :
    decodeAddress portXor v4Xor v6Xor ([0x00,0x01] ++ be16 (port ^^^ portXor) ++ be32 (ip ^^^ v4Xor)) attrType =
      .ok (.v4 ip port) := by
  have portHere : u16At ([0x00,0x01] ++ be16 (port ^^^ portXor) ++ be32 (ip ^^^ v4Xor)) 2 = port ^^^ portXor := by
    rw [List.append_assoc]
    exact (Tlv.u16At_append [0x00,0x01] _ 0).trans (u16At_be16 _ _)
  have ipHere : (([0x00,0x01] ++ be16 (port ^^^ portXor) ++ be32 (ip ^^^ v4Xor)).drop 4).take 4 =
      be32 (ip ^^^ v4Xor) := rfl
  simp only [decodeAddress,portHere,ipHere,ofNat_fromBeBytes_be32,UInt16.xor_assoc,UInt16.xor_self,UInt16.xor_zero,
    UInt32.xor_assoc,UInt32.xor_self,UInt32.xor_zero]
  simp

theorem decodeAddress_v6 (portXor : UInt16) (v4Xor : UInt32) (v6Xor ip : Vector UInt8 16) (port attrType : UInt16) :
    decodeAddress portXor v4Xor v6Xor
      ([0x00,0x02] ++ be16 (port ^^^ portXor) ++ (Vector.zipWith (· ^^^ ·) ip v6Xor).toList) attrType =
      .ok (.v6 ip port 0 0) := by
  have portHere : u16At ([0x00,0x02] ++ be16 (port ^^^ portXor) ++ (Vector.zipWith (· ^^^ ·) ip v6Xor).toList) 2 =
      port ^^^ portXor := by
    rw [List.append_assoc]
    exact (Tlv.u16At_append [0x00,0x02] _ 0).trans (u16At_be16 _ _)
  have ipHere := vectorAt_append ([0x00,0x02] ++ be16 (port ^^^ portXor)) [] (Vector.zipWith (· ^^^ ·) ip v6Xor)
  rw [List.append_nil] at ipHere
  have front : ([0x00,0x02] ++ be16 (port ^^^ portXor)).length = 4 := rfl
  rw [front] at ipHere
  simp only [decodeAddress,portHere,ipHere,zipWith_xor_cancel,UInt16.xor_assoc,UInt16.xor_self,UInt16.xor_zero]
  simp

theorem decodeMappedAddress_encode {addr : SocketAddr} (plain : addr.Plain) (attrType : UInt16) :
    decodeMappedAddress (encodeMappedAddress addr) attrType = .ok addr := by
  cases addr with
  | v4 ip port =>
    have decoded := decodeAddress_v4 0 0 (Vector.replicate 16 0) ip port attrType
    rw [UInt16.xor_zero,UInt32.xor_zero] at decoded
    exact decoded
  | v6 ip port flowinfo scopeId =>
    obtain ⟨rfl,rfl⟩ := plain
    have clear : Vector.zipWith (· ^^^ ·) ip (Vector.replicate 16 0) = ip := by
      apply Vector.ext
      intro i bound
      simp
    have decoded := decodeAddress_v6 0 0 (Vector.replicate 16 0) ip port attrType
    rw [clear,UInt16.xor_zero] at decoded
    exact decoded

theorem decodeXorMappedAddress_encode {addr : SocketAddr} (plain : addr.Plain) (tid : TransactionId)
    (attrType : UInt16) : decodeXorMappedAddress (encodeXorMappedAddress addr tid) tid attrType = .ok addr := by
  cases addr with
  | v4 ip port => exact decodeAddress_v4 _ _ _ ip port attrType
  | v6 ip port flowinfo scopeId =>
    obtain ⟨rfl,rfl⟩ := plain
    exact decodeAddress_v6 _ _ _ ip port attrType

theorem errorCode_split {code : UInt16} (small : code < 25600) :
    UInt16.ofNat (satAdd u16Max (min (code.toNat / 100 % 256 * 100) u16Max) (code.toNat % 100 % 256)) = code := by
  have bound : code.toNat < 25600 := by simpa using UInt16.lt_iff_toNat_lt.mp small
  have hundreds : code.toNat / 100 % 256 = code.toNat / 100 := Nat.mod_eq_of_lt (by omega)
  have units : code.toNat % 100 % 256 = code.toNat % 100 := Nat.mod_eq_of_lt (by omega)
  have class' : min (code.toNat / 100 * 100) u16Max = code.toNat / 100 * 100 :=
    Nat.min_eq_left (by unfold u16Max; omega)
  rw [hundreds,units,class',satAdd_of_le (by unfold u16Max; omega),Nat.div_add_mod']
  exact UInt16.ofNat_toNat

theorem decodeOneAttribute_attributeTlv (suite : StunSuite) (tid : TransactionId) {attr : StunAttribute}
    (plain : attr.Plain) :
    decodeOneAttribute suite tid (attributeTlv attr tid).1 (attributeTlv attr tid).2 = .ok attr := by
  cases attr with
  | mappedAddress addr => simp [decodeOneAttribute,attributeTlv,decodeMappedAddress_encode plain,Except.map]
  | xorMappedAddress addr =>
    simp [decodeOneAttribute,attributeTlv,decodeXorMappedAddress_encode plain,Except.map]
  | errorCode code reason =>
    have long : ¬reason.asBytes.length + 1 + 1 + 1 + 1 < 4 := by omega
    simp [decodeOneAttribute,attributeTlv,fromUtf8Lossy_asBytes,errorCode_split plain,long]
  | unknownComprehensionRequired types =>
    simp [decodeOneAttribute,attributeTlv,u16Chunks_flatMap]
  | unknown attrType value =>
    simp only [StunAttribute.Plain,knownTypes,List.mem_cons,List.not_mem_nil,not_or,or_false] at plain
    simp [decodeOneAttribute,attributeTlv,plain]
  | messageIntegrity hmac =>
    have whole : hmac.toList.take 20 = hmac.toList := List.take_of_length_le (by simp)
    simp [decodeOneAttribute,attributeTlv,fixedValue,whole,vectorAt_toList]
  | username | useCandidate | software =>
    simp [decodeOneAttribute,attributeTlv,fromUtf8Lossy_asBytes]
  | fingerprint | priority | iceControlled | iceControlling =>
    simp [decodeOneAttribute,attributeTlv,fixedValue,List.take_of_length_le]

theorem encodeAttributes_eq (attrs : List StunAttribute) (tid : TransactionId) :
    encodeAttributes attrs tid = Tlv.encode (attrs.map (attributeTlv · tid)) := by
  simp only [encodeAttributes,Tlv.encode,List.flatMap_map]
  rfl

theorem decodeAttributes_encodeAttributes (suite : StunSuite) (tid : TransactionId) {attrs : List StunAttribute}
    (plain : ∀ attr ∈ attrs, attr.Plain) (fits : (encodeAttributes attrs tid).length ≤ u16Max) :
    decodeAttributes suite (encodeAttributes attrs tid) tid = .ok attrs := by
  rw [encodeAttributes_eq] at fits ⊢
  apply Tlv.decodeFrom_encode
  · exact fun i member => (Tlv.length_value_le member).trans fits
  · rw [List.forall₂_map_left_iff,List.forall₂_same]
    exact fun attr member => decodeOneAttribute_attributeTlv suite tid (plain attr member)

theorem length_encodeAttributes_mod (attrs : List StunAttribute) (tid : TransactionId) :
    (encodeAttributes attrs tid).length % 4 = 0 := by
  rw [encodeAttributes_eq]
  exact Tlv.length_encode_mod _

namespace StunMessage

def attrBytes (msg : StunMessage) : Bytes := encodeAttributes msg.attributes msg.transactionId

variable (suite : StunSuite) (msg : StunMessage) (key : Bytes) {attr : StunAttribute}

theorem decode_encode_append (tail : Bytes) (plain : ∀ attr ∈ msg.attributes, attr.Plain)
    (fits : msg.attrBytes.length ≤ u16Max) : decode suite (msg.encode ++ tail) = .ok msg := by
  have framed := decode_framed suite msg.class' msg.method msg.transactionId msg.attrBytes tail fits
    (length_encodeAttributes_mod _ _)
  rw [attrBytes,decodeAttributes_encodeAttributes suite msg.transactionId plain fits] at framed
  rw [encode,List.append_assoc]
  exact framed

def covered : Bytes :=
  buildHeader msg.class' msg.method msg.transactionId (msg.attrBytes.length + 24) ++ msg.attrBytes

def integrity : Vector UInt8 20 := suite.hmacSha1 key msg.covered

def signed : StunMessage :=
  { msg with attributes := msg.attributes ++ [.messageIntegrity (msg.integrity suite key)] }

theorem attrBytes_signed : (msg.signed suite key).attrBytes =
    msg.attrBytes ++ Tlv.item 0x0008 (msg.integrity suite key).toList := by
  simp [attrBytes,signed,encodeAttributes,encodeOneAttribute,attributeTlv]

theorem length_attrBytes_signed : (msg.signed suite key).attrBytes.length = msg.attrBytes.length + 24 := by
  rw [attrBytes_signed,List.length_append,Tlv.length_item]
  simp [Tlv.paddedLen]

theorem encodeWithIntegrity_eq : msg.encodeWithIntegrity suite key = (msg.signed suite key).encode := by
  have whole : (msg.signed suite key).encode =
      buildHeader msg.class' msg.method msg.transactionId (msg.signed suite key).attrBytes.length ++
        (msg.signed suite key).attrBytes := rfl
  rw [whole,length_attrBytes_signed,attrBytes_signed,item_integrity]
  simp only [encodeWithIntegrity,integrity,covered,attrBytes,List.append_assoc]

/-- What can be signed and read back: all attributes decode unchanged, none is an integrity
value, and the body fits the length field. -/
structure Signable (msg : StunMessage) : Prop where
  plain : ∀ attr ∈ msg.attributes, attr.Plain
  unsigned : ∀ attr ∈ msg.attributes, ∀ hmac, attr ≠ .messageIntegrity hmac
  fits : msg.attrBytes.length + 24 ≤ u16Max

theorem decode_signed (signable : msg.Signable) :
    decode suite (msg.encodeWithIntegrity suite key) = .ok (msg.signed suite key) := by
  have plain : ∀ attr ∈ (msg.signed suite key).attributes, attr.Plain := by
    intro attr member
    rcases List.mem_append.mp member with before | last
    · exact signable.plain attr before
    · cases List.mem_singleton.mp last
      trivial
  have decoded := decode_encode_append suite (msg.signed suite key) [] plain
    (by rw [length_attrBytes_signed]; exact signable.fits)
  rwa [List.append_nil,← encodeWithIntegrity_eq] at decoded

theorem decode_oversized_signed (exceeds : u16Max < msg.attrBytes.length + 24) :
    decode suite (msg.encodeWithIntegrity suite key) = .error (.messageLengthNotAligned 65535) := by
  rw [encodeWithIntegrity_eq,encode]
  apply decode_oversized
  change u16Max < (msg.signed suite key).attrBytes.length
  rwa [length_attrBytes_signed]

theorem attributeTlv_ne_integrity (plain : attr.Plain)
    (unsigned : ∀ hmac, attr ≠ .messageIntegrity hmac) (tid : TransactionId) :
    (attributeTlv attr tid).1 ≠ 0x0008 := by
  cases attr with
  | messageIntegrity hmac => exact absurd rfl (unsigned hmac)
  | unknown attrType value =>
    rintro (known : attrType = 0x0008)
    apply plain
    rw [known]
    decide
  | _ => simp only [attributeTlv]; decide

theorem attributeTlv_ne_fingerprint (plain : attr.Plain)
    (unstamped : ∀ crc, attr ≠ .fingerprint crc) (tid : TransactionId) : (attributeTlv attr tid).1 ≠ 0x8028 := by
  cases attr with
  | fingerprint crc => exact absurd rfl (unstamped crc)
  | unknown attrType value =>
    rintro (known : attrType = 0x8028)
    apply plain
    rw [known]
    decide
  | _ => simp only [attributeTlv]; decide

/-- The attribute search in a message whose last attributes start with one of the target type. -/
theorem findAttrOffset_encode {before after : List StunAttribute}
    (split : msg.attributes = before ++ attr :: after) (fits : msg.attrBytes.length ≤ u16Max)
    (other : ∀ a ∈ before, (attributeTlv a msg.transactionId).1 ≠ (attributeTlv attr msg.transactionId).1) :
    findAttrOffset msg.encode (attributeTlv attr msg.transactionId).1 =
      .ok (stunHeaderLen + (encodeAttributes before msg.transactionId).length) := by
  have whole : msg.attrBytes = Tlv.encode (before.map (attributeTlv · msg.transactionId)) ++
      (Tlv.item (attributeTlv attr msg.transactionId).1 (attributeTlv attr msg.transactionId).2 ++
        encodeAttributes after msg.transactionId) := by
    simp [attrBytes,split,← encodeAttributes_eq,encodeAttributes,encodeOneAttribute]
  have others : ∀ i ∈ before.map (attributeTlv · msg.transactionId), i.1 ≠ (attributeTlv attr msg.transactionId).1 := by
    intro i member
    obtain ⟨a,here,rfl⟩ := List.mem_map.mp member
    exact other a here
  rw [encodeAttributes_eq]
  exact findAttrWith_framed _ (encodeType msg.class' msg.method) _ msg.transactionId whole fits others

theorem verifyIntegrity_found {raw : Bytes} {miOffset : Nat} (found : findAttrOffset raw 0x0008 = .ok miOffset) :
    verifyIntegrity suite raw key = integrityAt suite raw key miOffset := by
  simp only [verifyIntegrity,found]
  rfl

variable {msg}

/-- The integrity check of a signed message compares the two values over the same bytes. -/
theorem verifyIntegrity_signed (signable : msg.Signable) (key' : Bytes) :
    verifyIntegrity suite (msg.encodeWithIntegrity suite key) key' =
      if (msg.integrity suite key').toList = (msg.integrity suite key).toList then .ok ()
      else .error .integrityMismatch := by
  have fits : (msg.signed suite key).attrBytes.length ≤ u16Max := by
    rw [length_attrBytes_signed]
    exact signable.fits
  have found := findAttrOffset_encode (msg.signed suite key) rfl fits
    (fun a here => attributeTlv_ne_integrity (signable.plain a here) (signable.unsigned a here) _)
  have whole : (msg.signed suite key).attrBytes =
      msg.attrBytes ++ (Tlv.item 0x0008 (msg.integrity suite key).toList ++ []) := by
    rw [attrBytes_signed,List.append_nil]
  rw [encodeWithIntegrity_eq,verifyIntegrity_found suite key' found]
  exact integrityAt_framed suite key' (encodeType msg.class' msg.method) msg.transactionId whole fits (.inl rfl)

/-! Signed messages with a fingerprint. -/

variable (msg)

def stamped : Bytes :=
  buildHeader msg.class' msg.method msg.transactionId (msg.attrBytes.length + 32) ++ (msg.signed suite key).attrBytes

def checksum : UInt32 := suite.crc32 (msg.stamped suite key) ^^^ 0x5354554e

def fingerprinted : StunMessage :=
  { msg with attributes := msg.attributes ++
      [.messageIntegrity (msg.integrity suite key),.fingerprint (msg.checksum suite key)] }

theorem attrBytes_fingerprinted : (msg.fingerprinted suite key).attrBytes =
    (msg.signed suite key).attrBytes ++ Tlv.item 0x8028 (be32 (msg.checksum suite key)) := by
  simp [attrBytes,signed,fingerprinted,encodeAttributes,encodeOneAttribute,attributeTlv]

theorem length_attrBytes_fingerprinted :
    (msg.fingerprinted suite key).attrBytes.length = msg.attrBytes.length + 32 := by
  rw [attrBytes_fingerprinted,List.length_append,Tlv.length_item,length_attrBytes_signed]
  simp [Tlv.paddedLen]

theorem item_fingerprint (crc : UInt32) : Tlv.item 0x8028 (be32 crc) = be16 0x8028 ++ (be16 4 ++ be32 crc) := by
  simp [Tlv.item,be16,u16Max]

theorem encode_fingerprinted : (msg.fingerprinted suite key).encode =
    msg.stamped suite key ++ (be16 0x8028 ++ be16 4 ++ be32 (msg.checksum suite key)) := by
  have whole : (msg.fingerprinted suite key).encode =
      buildHeader msg.class' msg.method msg.transactionId (msg.fingerprinted suite key).attrBytes.length ++
        (msg.fingerprinted suite key).attrBytes := rfl
  rw [whole,length_attrBytes_fingerprinted,attrBytes_fingerprinted,item_fingerprint]
  simp only [stamped,List.append_assoc]

theorem encodeWithIntegrityAndFingerprint_eq :
    msg.encodeWithIntegrityAndFingerprint suite key = (msg.fingerprinted suite key).encode := by
  have signed' : (msg.signed suite key).encode =
      stunHeader (encodeType msg.class' msg.method) msg.transactionId (msg.signed suite key).attrBytes.length ++
        (msg.signed suite key).attrBytes := rfl
  have size : (msg.signed suite key).encode.length + 8 - stunHeaderLen = msg.attrBytes.length + 32 := by
    rw [signed',List.length_append,length_stunHeader,length_attrBytes_signed]
    omega
  have restamped : setLength (msg.signed suite key).encode (msg.attrBytes.length + 32) = msg.stamped suite key := by
    rw [signed',setLength_stunHeader]
    rfl
  simp only [encode_fingerprinted,encodeWithIntegrityAndFingerprint,encodeWithIntegrity_eq,size,restamped,checksum,
    List.append_assoc]

/-- What can be signed and stamped with a fingerprint, and read back. -/
structure Stampable (msg : StunMessage) : Prop where
  plain : ∀ attr ∈ msg.attributes, attr.Plain
  unsigned : ∀ attr ∈ msg.attributes, ∀ hmac, attr ≠ .messageIntegrity hmac
  unstamped : ∀ attr ∈ msg.attributes, ∀ crc, attr ≠ .fingerprint crc
  fits : msg.attrBytes.length + 32 ≤ u16Max

variable {msg}

theorem Stampable.signable (stampable : msg.Stampable) : msg.Signable where
  plain := stampable.plain
  unsigned := stampable.unsigned
  fits := by
    have := stampable.fits
    omega

section Stamped

variable (stampable : msg.Stampable)

include stampable

theorem fits_fingerprinted : (msg.fingerprinted suite key).attrBytes.length ≤ u16Max := by
  rw [length_attrBytes_fingerprinted]
  exact stampable.fits

theorem decode_fingerprinted :
    decode suite (msg.encodeWithIntegrityAndFingerprint suite key) = .ok (msg.fingerprinted suite key) := by
  have plain : ∀ attr ∈ (msg.fingerprinted suite key).attributes, attr.Plain := by
    intro attr member
    rcases List.mem_append.mp member with before | last
    · exact stampable.plain attr before
    · simp only [List.mem_cons,List.not_mem_nil,or_false] at last
      rcases last with rfl | rfl <;> trivial
  have decoded := decode_encode_append suite (msg.fingerprinted suite key) [] plain
    (fits_fingerprinted suite key stampable)
  rwa [List.append_nil,← encodeWithIntegrityAndFingerprint_eq] at decoded

theorem verifyIntegrity_fingerprinted :
    verifyIntegrity suite (msg.encodeWithIntegrityAndFingerprint suite key) key = .ok () := by
  have fits := fits_fingerprinted suite key stampable
  have found := findAttrOffset_encode (msg.fingerprinted suite key) rfl fits
    (fun a here => attributeTlv_ne_integrity (stampable.plain a here) (stampable.unsigned a here) _)
  have whole : (msg.fingerprinted suite key).attrBytes = msg.attrBytes ++
      (Tlv.item 0x0008 (msg.integrity suite key).toList ++ Tlv.item 0x8028 (be32 (msg.checksum suite key))) := by
    rw [attrBytes_fingerprinted,attrBytes_signed,List.append_assoc]
  have trailer : slice? (Tlv.item 0x8028 (be32 (msg.checksum suite key))) 0 2 = some (be16 0x8028) := by
    rw [item_fingerprint]
    exact slice?_append [] (be16 0x8028) _
  have checked := integrityAt_framed suite key (encodeType msg.class' msg.method) msg.transactionId whole fits
    (.inr ⟨by simp [item_fingerprint],trailer⟩)
  rw [encodeWithIntegrityAndFingerprint_eq,verifyIntegrity_found suite key found]
  exact checked.trans (if_pos rfl)

theorem findAttrOffset_fingerprint :
    findAttrOffset (msg.fingerprinted suite key).encode 0x8028 = .ok (msg.stamped suite key).length := by
  have other : ∀ a ∈ msg.attributes ++ [.messageIntegrity (msg.integrity suite key)],
      (attributeTlv a msg.transactionId).1 ≠ 0x8028 := by
    intro a member
    rcases List.mem_append.mp member with before | last
    · exact attributeTlv_ne_fingerprint (stampable.plain a before) (stampable.unstamped a before) _
    · cases List.mem_singleton.mp last
      simp [attributeTlv]
  have split : (msg.fingerprinted suite key).attributes =
      (msg.attributes ++ [.messageIntegrity (msg.integrity suite key)]) ++ .fingerprint (msg.checksum suite key) :: [] := by
    simp [fingerprinted]
  have offset : stunHeaderLen + (msg.signed suite key).attrBytes.length = (msg.stamped suite key).length := by
    simp [stamped,buildHeader_eq]
  rw [← offset]
  exact findAttrOffset_encode (msg.fingerprinted suite key) split (fits_fingerprinted suite key stampable) other

/-- The fingerprint check of a stamped message takes the checksum over the bytes it was taken over. -/
theorem verifyFingerprint_fingerprinted :
    verifyFingerprint suite (msg.encodeWithIntegrityAndFingerprint suite key) = .ok () := by
  have length : (u16At (msg.fingerprinted suite key).encode 2).toNat = msg.attrBytes.length + 32 := by
    have field : u16At (msg.fingerprinted suite key).encode 2 =
        UInt16.ofNat (min (msg.fingerprinted suite key).attrBytes.length u16Max) := stunHeader_length _ _ _ _
    rw [field,toNat_lengthField (fits_fingerprinted suite key stampable),length_attrBytes_fingerprinted]
  have ends : (msg.stamped suite key).length + 8 = stunHeaderLen + (msg.attrBytes.length + 32) := by
    simp [stamped,buildHeader_eq,length_attrBytes_signed]
    omega
  have front : slice? (msg.fingerprinted suite key).encode 0 (msg.stamped suite key).length =
      some (msg.stamped suite key) := by
    have cut := slice?_append [] (msg.stamped suite key) (be16 0x8028 ++ be16 4 ++ be32 (msg.checksum suite key))
    simpa [encode_fingerprinted] using cut
  have stored : slice? (msg.fingerprinted suite key).encode ((msg.stamped suite key).length + 4)
      ((msg.stamped suite key).length + 4 + 4) = some (be32 (msg.checksum suite key)) := by
    have cut := slice?_append (msg.stamped suite key ++ (be16 0x8028 ++ be16 4)) (be32 (msg.checksum suite key)) []
    simpa [encode_fingerprinted] using cut
  have same : setLength (msg.stamped suite key) (msg.attrBytes.length + 32) = msg.stamped suite key :=
    setLength_stunHeader _ _ _ _ _
  have covers : (msg.stamped suite key).length + 8 - stunHeaderLen = msg.attrBytes.length + 32 := by omega
  rw [encodeWithIntegrityAndFingerprint_eq,verifyFingerprint,findAttrOffset_fingerprint suite key stampable]
  simp only [length]
  rw [if_neg (not_not.mpr ends)]
  simp only [front,covers,same,stored,ofNat_fromBeBytes_be32]
  exact if_pos rfl

end Stamped

/-- Decoding inverts all three encoders, and what they sign and stamp passes the checks. -/
theorem stun_codec_round_trip (suite : StunSuite) (m : StunMessage) (plain : ∀ attr ∈ m.attributes, attr.Plain)
    (fits : (encodeAttributes m.attributes m.transactionId).length + 32 ≤ 65532) :
    (∀ tail, decode suite (m.encode ++ tail) = .ok m) ∧
    ((∀ attr ∈ m.attributes, (∀ hmac, attr ≠ .messageIntegrity hmac) ∧ ∀ crc, attr ≠ .fingerprint crc) → ∀ key,
      decode suite (m.encodeWithIntegrity suite key) =
        .ok { m with attributes := m.attributes ++ [.messageIntegrity (m.integrity suite key)] } ∧
      decode suite (m.encodeWithIntegrityAndFingerprint suite key) =
        .ok { m with attributes := m.attributes ++
          [.messageIntegrity (m.integrity suite key),.fingerprint (m.checksum suite key)] } ∧
      verifyIntegrity suite (m.encodeWithIntegrity suite key) key = .ok () ∧
      verifyIntegrity suite (m.encodeWithIntegrityAndFingerprint suite key) key = .ok () ∧
      verifyFingerprint suite (m.encodeWithIntegrityAndFingerprint suite key) = .ok ()) := by
  have room : m.attrBytes.length + 32 ≤ u16Max := fits.trans (by simp [u16Max])
  constructor
  · intro tail
    exact decode_encode_append suite m tail plain (by omega)
  · intro bare key
    have stampable : m.Stampable := ⟨plain,fun a here => (bare a here).1,fun a here => (bare a here).2,room⟩
    have integrity := verifyIntegrity_signed suite key stampable.signable key
    rw [if_pos rfl] at integrity
    exact ⟨decode_signed suite m key stampable.signable,decode_fingerprinted suite key stampable,integrity,
      verifyIntegrity_fingerprinted suite key stampable,verifyFingerprint_fingerprinted suite key stampable⟩

end StunMessage

namespace Transparent

/-- A stand-in: the integrity value is the front of key and message, the checksum its length. -/
def stun : StunSuite :=
  ⟨fun key data => vectorAt 20 (key ++ data) 0,fun data => UInt32.ofNat data.length,fun _ => []⟩

end Transparent

namespace StunMessage

open Transparent

def roleConflict : StunMessage :=
  ⟨.errorResponse,.binding,Vector.replicate 12 7,
    [.xorMappedAddress (.v6 (Vector.replicate 16 9) 4711 0 0),.errorCode 487 "Role Conflict".toList,.unknown 0x7777 [1]]⟩

theorem roleConflict_round_trip :
    decode stun (roleConflict.encodeWithIntegrityAndFingerprint stun [1,2,3]) =
      .ok (roleConflict.fingerprinted stun [1,2,3]) ∧
    verifyFingerprint stun (roleConflict.encodeWithIntegrityAndFingerprint stun [1,2,3]) = .ok () := by
  have plain : ∀ attr ∈ roleConflict.attributes, attr.Plain := by
    simp [roleConflict,StunAttribute.Plain,SocketAddr.Plain,knownTypes]
  obtain ⟨_,credentials⟩ := stun_codec_round_trip stun roleConflict plain (by decide +kernel)
  obtain ⟨_,stamped,_,_,checked⟩ := credentials (by simp [roleConflict]) [1,2,3]
  exact ⟨stamped,checked⟩

end StunMessage

end Streamhaul
