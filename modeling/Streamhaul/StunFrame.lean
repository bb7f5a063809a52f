import Streamhaul.Stun

/-! The frame that STUN and TURN messages share: a header with a type word, the length of the
body, the cookie and the transaction id, the search for an attribute in the body, and the
comparison of an integrity value once it is found. -/
namespace Streamhaul

open Tlv (u16At)

theorem u16At_be16 (n : UInt16) (rest : Bytes) : u16At (be16 n ++ rest) 0 = n := by
  rw [be16,Tlv.u16At_toBeBytes,UInt16.ofNat_toNat]

theorem toNat_lengthField {len : Nat} (fits : len ≤ u16Max) : (UInt16.ofNat (min len u16Max)).toNat = len := by
  rw [Nat.min_eq_left fits,UInt16.toNat_ofNat']
  apply Nat.mod_eq_of_lt
  unfold u16Max at fits
  omega

def stunHeader (typeWord : UInt16) (tid : TransactionId) (len : Nat) : Bytes :=
  be16 typeWord ++ toBeBytes 2 (min len u16Max) ++ be32 magicCookie ++ tid.toList

section Header

variable (typeWord : UInt16) (tid : TransactionId) (len : Nat) (body : Bytes)

@[simp] theorem length_stunHeader : (stunHeader typeWord tid len).length = stunHeaderLen := by
  simp [stunHeader,stunHeaderLen]

@[simp] theorem stunHeader_type : u16At (stunHeader typeWord tid len ++ body) 0 = typeWord := by
  simp only [stunHeader,List.append_assoc]
  exact u16At_be16 _ _

@[simp] theorem stunHeader_length :
    u16At (stunHeader typeWord tid len ++ body) 2 = UInt16.ofNat (min len u16Max) := by
  have skip := Tlv.u16At_append (be16 typeWord)
    (toBeBytes 2 (min len u16Max) ++ (be32 magicCookie ++ (tid.toList ++ body))) 0
  simp only [stunHeader,List.append_assoc]
  exact skip.trans (Tlv.u16At_toBeBytes _ _)

theorem stunHeader_cookie (raw : Bytes) (here : raw = stunHeader typeWord tid len ++ body) :
    [raw.getD 4 0,raw.getD 5 0,raw.getD 6 0,raw.getD 7 0] = be32 magicCookie := by
  have at' (i : Nat) : raw.getD (4 + i) 0 = (be32 magicCookie ++ (tid.toList ++ body)).getD i 0 := by
    have front := getD_append (be16 typeWord ++ toBeBytes 2 (min len u16Max))
      (be32 magicCookie ++ (tid.toList ++ body)) i
    rw [here,← front]
    simp [stunHeader]
  rw [show 5 = 4 + 1 from rfl,show 6 = 4 + 2 from rfl,show 7 = 4 + 3 from rfl,at' 0,at' 1,at' 2,at' 3]
  rfl

@[simp] theorem stunHeader_tid : vectorAt 12 (stunHeader typeWord tid len ++ body) 8 = tid := by
  have field := vectorAt_append (be16 typeWord ++ toBeBytes 2 (min len u16Max) ++ be32 magicCookie) body tid
  simpa [stunHeader] using field

@[simp] theorem setLength_stunHeader (len' : Nat) :
    setLength (stunHeader typeWord tid len ++ body) len' = stunHeader typeWord tid len' ++ body := by
  have long : 4 ≤ (stunHeader typeWord tid len ++ body).length := by
    simp [stunHeaderLen]
    omega
  rw [setLength,if_pos long]
  simp [stunHeader,be16,toBeBytes]

end Header

theorem aligned_lengthField {len : Nat} (fits : len ≤ u16Max) (aligned : len % 4 = 0) :
    UInt16.ofNat (min len u16Max) % 4 = 0 := by
  apply UInt16.toNat_inj.mp
  rw [UInt16.toNat_mod,toNat_lengthField fits]
  exact aligned

theorem slice?_framed (typeWord : UInt16) (tid : TransactionId) (body : Bytes) :
    slice? (stunHeader typeWord tid body.length ++ body) stunHeaderLen (stunHeaderLen + body.length) = some body := by
  have cut := slice?_append (stunHeader typeWord tid body.length) body []
  simpa using cut

/-- The attribute search of both codecs, which differ in the error for a missing attribute. -/
def findAttrWith (absent : IceError) (raw : Bytes) (target : UInt16) : Except IceError Nat :=
  if raw.length < stunHeaderLen then .error (.stunTruncated stunHeaderLen raw.length)
  else
    let total := stunHeaderLen + (u16At raw 2).toNat
    match slice? raw stunHeaderLen total with
    | none => .error (.stunTruncated total raw.length)
    | some attrBytes => (Tlv.findFrom .stunAttrTruncated absent target 0 attrBytes).map (stunHeaderLen + ·)

theorem findAttrWith_framed (absent : IceError) (typeWord target : UInt16) (tid : TransactionId)
    {items : List (UInt16 × Bytes)} {value rest body : Bytes}
    (whole : body = Tlv.encode items ++ (Tlv.item target value ++ rest)) (fits : body.length ≤ u16Max)
    (other : ∀ i ∈ items, i.1 ≠ target) :
    findAttrWith absent (stunHeader typeWord tid body.length ++ body) target =
      .ok (stunHeaderLen + (Tlv.encode items).length) := by
  have total : (Tlv.encode items).length + (4 + Tlv.paddedLen value.length + rest.length) ≤ u16Max := by
    rw [whole,List.length_append,List.length_append,Tlv.length_item] at fits
    exact fits
  have padding := Tlv.le_paddedLen value.length
  have short : ∀ i ∈ items, i.2.length ≤ u16Max := by
    intro i member
    have := Tlv.length_value_le member
    omega
  have found : Tlv.findFrom IceError.stunAttrTruncated absent target 0 body = .ok (Tlv.encode items).length := by
    rw [whole,Tlv.findFrom_encode short other (by omega),Nat.zero_add]
  have long : ¬(stunHeader typeWord tid body.length ++ body).length < stunHeaderLen := by simp
  simp only [findAttrWith,long,if_false,stunHeader_length,toNat_lengthField fits,slice?_framed,found]
  rfl

/-- What both integrity checks compare once the attribute is found. -/
def integrityAt (suite : StunSuite) (raw key : Bytes) (miOffset : Nat) : Except IceError Unit :=
  let miEnd := miOffset + 24
  let bodyEnd := stunHeaderLen + (u16At raw 2).toNat
  let trailer := (slice? raw miEnd bodyEnd).getD []
  if miEnd < bodyEnd ∧ ¬(trailer.length = 8 ∧ slice? trailer 0 2 = some (be16 0x8028)) then
    .error (.attrOrderingViolation "MESSAGE-INTEGRITY")
  else match slice? raw 0 miOffset with
    | none => .error (.stunTruncated miOffset raw.length)
    | some covered =>
      let expected := suite.hmacSha1 key (setLength covered (miOffset + 24 - stunHeaderLen))
      match slice? raw (miOffset + 4) (miOffset + 4 + 20) with
      | none => .error .integrityMismatch
      | some stored => if expected.toList = stored then .ok () else .error .integrityMismatch

theorem item_integrity (mac : Vector UInt8 20) : Tlv.item 0x0008 mac.toList = be16 0x0008 ++ (be16 20 ++ mac.toList) := by
  simp [Tlv.item,be16,u16Max]

/-- The check of an integrity attribute that is last, or last but a fingerprint, compares the two
values over the same bytes. -/
theorem integrityAt_framed (suite : StunSuite) (key : Bytes) (typeWord : UInt16) (tid : TransactionId)
    {attrs trailer body : Bytes} {mac : Vector UInt8 20}
    (whole : body = attrs ++ (Tlv.item 0x0008 mac.toList ++ trailer)) (fits : body.length ≤ u16Max)
    (last : trailer = [] ∨ trailer.length = 8 ∧ slice? trailer 0 2 = some (be16 0x8028)) :
    integrityAt suite (stunHeader typeWord tid body.length ++ body) key (stunHeaderLen + attrs.length) =
      if (suite.hmacSha1 key (stunHeader typeWord tid (attrs.length + 24) ++ attrs)).toList = mac.toList then .ok ()
      else .error .integrityMismatch := by
  have size : body.length = attrs.length + 24 + trailer.length := by
    rw [whole,List.length_append,List.length_append,Tlv.length_item,Vector.length_toList,Tlv.paddedLen]
    omega
  have front : slice? (stunHeader typeWord tid body.length ++ body) 0 (stunHeaderLen + attrs.length) =
      some (stunHeader typeWord tid body.length ++ attrs) := by
    have cut := slice?_append [] (stunHeader typeWord tid body.length ++ attrs) (Tlv.item 0x0008 mac.toList ++ trailer)
    simpa [whole] using cut
  have stored : slice? (stunHeader typeWord tid body.length ++ body) (stunHeaderLen + attrs.length + 4)
      (stunHeaderLen + attrs.length + 4 + 20) = some mac.toList := by
    have cut := slice?_append (stunHeader typeWord tid body.length ++ attrs ++ (be16 0x0008 ++ be16 20)) mac.toList trailer
    simpa [whole,item_integrity,Nat.add_assoc] using cut
  have behind : slice? (stunHeader typeWord tid body.length ++ body) (stunHeaderLen + attrs.length + 24)
      (stunHeaderLen + body.length) = some trailer := by
    have cut := slice?_append (stunHeader typeWord tid body.length ++ attrs ++ Tlv.item 0x0008 mac.toList) trailer []
    have ends : stunHeaderLen + body.length = stunHeaderLen + (attrs.length + (24 + trailer.length)) := by omega
    rw [ends]
    simpa [whole,item_integrity,Nat.add_assoc] using cut
  have admitted : ¬(stunHeaderLen + attrs.length + 24 < stunHeaderLen + body.length ∧
      ¬(trailer.length = 8 ∧ slice? trailer 0 2 = some (be16 0x8028))) := by
    rintro ⟨shorter,refused⟩
    rcases last with rfl | fingerprint
    · rw [size,List.length_nil] at shorter
      omega
    · exact refused fingerprint
  have length : stunHeaderLen + attrs.length + 24 - stunHeaderLen = attrs.length + 24 := by omega
  simp only [integrityAt,stunHeader_length,toNat_lengthField fits,behind,Option.getD_some,admitted,if_false,front,
    stored,length,setLength_stunHeader]

end Streamhaul
