import Streamhaul.BindCert
import Streamhaul.Record

/-! Signed credentials have one encoding each: a bind certificate and a grant decode from exactly
the bytes that are written for their fields and signature. -/
namespace Streamhaul

section Time

theorem i64OfBe_i64ToBe {value : Int} (low : i64Min ≤ value) (high : value ≤ i64Max) :
    i64OfBe (i64ToBe value) = value := by
  have word : fromBeBytes (i64ToBe value) = (value % 2 ^ 64).toNat := by
    apply fromBeBytes_of_lt
    omega
  simp only [i64Min,i64Max] at low high
  simp only [i64OfBe,word]
  split <;> omega

theorem i64ToBe_i64OfBe {bytes : Bytes} (size : bytes.length = 8) : i64ToBe (i64OfBe bytes) = bytes := by
  have bound := fromBeBytes_lt bytes
  have digits := toBeBytes_fromBeBytes bytes
  rw [size] at bound digits
  have word : (i64OfBe bytes % 2 ^ 64).toNat = fromBeBytes bytes := by
    simp only [i64OfBe]
    split <;> omega
  rw [i64ToBe,word,digits]

theorem i64OfBe_mem {bytes : Bytes} (size : bytes.length = 8) : i64Min ≤ i64OfBe bytes ∧ i64OfBe bytes ≤ i64Max := by
  have bound := fromBeBytes_lt bytes
  rw [size] at bound
  simp only [i64OfBe,i64Min,i64Max]
  split <;> omega

@[simp] theorem length_i64ToBe (value : Int) : (i64ToBe value).length = 8 := length_toBeBytes 8 _

end Time

structure TbsFields.Valid (fields : TbsFields) : Prop where
  alg : fields.dtlsFprAlg = dtlsFprAlgNone ∨ fields.dtlsFprAlg = dtlsFprAlgSha256
  commit : fields.dtlsFprAlg = dtlsFprAlgNone → fields.dtlsFprCommit = Vector.replicate 32 0
  attest : fields.platformAttest.length ≤ maxPlatformAttestLen
  notAfter : i64Min ≤ fields.notAfter ∧ fields.notAfter ≤ i64Max
  issuedAt : i64Min ≤ fields.issuedAt ∧ fields.issuedAt ≤ i64Max
  period : fields.issuedAt < fields.notAfter

namespace BindCert

def tbsParts (fields : TbsFields) : List Bytes :=
  [bindCertDomainTag,[bindCertTbsVersion],[bindCertFieldCount],fields.deviceIdDigest.toList,fields.noiseStatic.toList,
    [fields.dtlsFprAlg],fields.dtlsFprCommit.toList,toBeBytes 2 fields.platformAttest.length,fields.platformAttest,
    i64ToBe fields.notAfter,i64ToBe fields.issuedAt]

theorem buildTbs_eq (fields : TbsFields) : buildTbs fields = (tbsParts fields).flatten := by
  simp [buildTbs,tbsParts]

theorem map_length_tbsParts (fields : TbsFields) :
    (tbsParts fields).map List.length = [12,1,1,32,32,1,32,2,fields.platformAttest.length,8,8] := by
  simp [tbsParts,bindCertDomainTag,ascii]

theorem length_buildTbs (fields : TbsFields) :
    (buildTbs fields).length = bindCertTbsMinLen + fields.platformAttest.length := by
  simp only [buildTbs_eq,List.length_flatten,map_length_tbsParts,List.sum_cons,List.sum_nil,bindCertTbsMinLen]
  omega

/-- The signed bytes, field by field as the parser reads them. -/
structure Layout (fields : TbsFields) (tbs : Bytes) : Prop where
  tag : tbs.take 12 = bindCertDomainTag
  version : tbs.getD 12 0 = bindCertTbsVersion
  fieldCount : tbs.getD 13 0 = bindCertFieldCount
  deviceIdDigest : vectorAt 32 tbs 14 = fields.deviceIdDigest
  noiseStatic : vectorAt 32 tbs 46 = fields.noiseStatic
  dtlsFprAlg : tbs.getD 78 0 = fields.dtlsFprAlg
  dtlsFprCommit : vectorAt 32 tbs 79 = fields.dtlsFprCommit
  attestLen : (tbs.drop 111).take 2 = toBeBytes 2 fields.platformAttest.length
  attest : (tbs.drop 113).take fields.platformAttest.length = fields.platformAttest
  notAfter : (tbs.drop (113 + fields.platformAttest.length)).take 8 = i64ToBe fields.notAfter
  issuedAt : (tbs.drop (121 + fields.platformAttest.length)).take 8 = i64ToBe fields.issuedAt

variable {fields : TbsFields}

theorem layout_iff {tbs : Bytes} (size : tbs.length = bindCertTbsMinLen + fields.platformAttest.length) :
    tbs = buildTbs fields ↔ Layout fields tbs := by
  have total : tbs.length = ((tbsParts fields).map List.length).sum := by
    rw [size,← length_buildTbs,buildTbs_eq,List.length_flatten]
  unfold bindCertTbsMinLen at size
  have last : 113 + fields.platformAttest.length + 8 = 121 + fields.platformAttest.length := by omega
  rw [buildTbs_eq,eq_flatten_iff total,map_length_tbsParts]
  simp only [tbsParts,List.splitLengths_cons,List.splitLengths_nil,List.drop_drop,Nat.reduceAdd,List.cons.injEq,last,
    take_drop_eq_toList_iff (show 14 + 32 ≤ tbs.length by omega),take_drop_eq_toList_iff (show 46 + 32 ≤ tbs.length by omega),
    take_drop_eq_toList_iff (show 79 + 32 ≤ tbs.length by omega),take_one_eq_iff (show 12 < tbs.length by omega),
    take_one_eq_iff (show 13 < tbs.length by omega),take_one_eq_iff (show 78 < tbs.length by omega),and_true]
  constructor
  · rintro ⟨tag,version,count,digest,noise,alg,commit,len,attest,notAfter,issuedAt⟩
    exact ⟨tag,version,count,digest,noise,alg,commit,len,attest,notAfter,issuedAt⟩
  · rintro ⟨tag,version,count,digest,noise,alg,commit,len,attest,notAfter,issuedAt⟩
    exact ⟨tag,version,count,digest,noise,alg,commit,len,attest,notAfter,issuedAt⟩

theorem parseTbs_buildTbs (valid : fields.Valid) : parseTbs (buildTbs fields) = .ok fields := by
  have size := length_buildTbs fields
  have layout := (layout_iff size).mp rfl
  have attest := valid.attest
  have len : fromBeBytes ((buildTbs fields |>.drop 111).take 2) = fields.platformAttest.length := by
    rw [layout.attestLen]
    apply fromBeBytes_of_lt
    unfold maxPlatformAttestLen at attest
    omega
  have long : ¬(buildTbs fields).length < bindCertTbsMinLen := by omega
  have known : ¬(fields.dtlsFprAlg ≠ dtlsFprAlgNone ∧ fields.dtlsFprAlg ≠ dtlsFprAlgSha256) := by
    rintro ⟨some,other⟩
    exact valid.alg.elim some other
  have clear : ¬(fields.dtlsFprAlg = dtlsFprAlgNone ∧ fields.dtlsFprCommit ≠ Vector.replicate 32 0) := by
    rintro ⟨none,set⟩
    exact set (valid.commit none)
  rw [parseTbs,if_neg long]
  simp only [layout.tag,layout.version,layout.fieldCount,layout.deviceIdDigest,layout.noiseStatic,layout.dtlsFprAlg,
    layout.dtlsFprCommit,len,size,layout.attest,layout.notAfter,layout.issuedAt,known,clear,if_false,
    i64OfBe_i64ToBe valid.notAfter.1 valid.notAfter.2,i64OfBe_i64ToBe valid.issuedAt.1 valid.issuedAt.2,ne_eq,
    not_true_eq_false,gt_iff_lt,Nat.not_lt.mpr attest,Int.not_le.mpr valid.period]

theorem parseTbs_ok_iff {tbs : Bytes} :
    parseTbs tbs = .ok fields ↔ fields.Valid ∧ tbs = buildTbs fields := by
  constructor
  · intro parsed
    simp only [parseTbs,ite_eq_ok_iff,reduceCtorEq,and_false,false_or] at parsed
    obtain ⟨short,tag,version,count,alg,commit,attest,size,period,same⟩ := parsed
    obtain rfl := Except.ok.inj same
    generalize len : fromBeBytes ((tbs.drop 111).take 2) = paLen at *
    have total : tbs.length = bindCertTbsMinLen + paLen := not_not.mp size
    have inside (start n : Nat) (bound : start + n ≤ 129 + paLen) : ((tbs.drop start).take n).length = n := by
      rw [List.length_take,List.length_drop,total]
      unfold bindCertTbsMinLen
      omega
    have room : ((tbs.drop 113).take paLen).length = paLen := inside _ _ (by omega)
    have digits := toBeBytes_fromBeBytes ((tbs.drop 111).take 2)
    rw [inside 111 2 (by omega),len] at digits
    have notAfter := inside (113 + paLen) 8 (by omega)
    have issuedAt := inside (121 + paLen) 8 (by omega)
    refine ⟨⟨(not_and_or.mp alg).imp not_not.mp not_not.mp,
      fun none => not_not.mp (fun set => commit ⟨none,set⟩),?_,i64OfBe_mem notAfter,i64OfBe_mem issuedAt,Int.not_le.mp period⟩,?_⟩
    · rw [room]
      exact Nat.not_lt.mp attest
    · apply (layout_iff (by rw [room]; exact total)).mpr
      refine ⟨not_not.mp tag,not_not.mp version,not_not.mp count,rfl,rfl,rfl,rfl,?_,?_,?_,?_⟩
      · rw [room]
        exact digits.symm
      · rw [room]
      · rw [room]
        exact (i64ToBe_i64OfBe notAfter).symm
      · rw [room]
        exact (i64ToBe_i64OfBe issuedAt).symm
  · rintro ⟨valid,rfl⟩
    exact parseTbs_buildTbs valid

structure Canonical (cert : BindCert) : Prop where
  valid : cert.fields.Valid
  tbs : cert.tbsBytes = buildTbs cert.fields

theorem canonical_of_decode {wire : Bytes} {cert : BindCert} (decoded : decode wire = .ok cert) : cert.Canonical := by
  obtain ⟨valid,tbs⟩ := parseTbs_ok_iff.mp (decode_ok decoded).parsed
  exact ⟨valid,tbs⟩

theorem decode_encode {cert : BindCert} (canonical : cert.Canonical) : decode cert.encode = .ok cert := by
  have size : cert.tbsBytes.length < 256 ^ 4 := by
    have attest := canonical.valid.attest
    rw [canonical.tbs,length_buildTbs]
    unfold bindCertTbsMinLen
    unfold maxPlatformAttestLen at attest
    omega
  have whole : cert.encode = toBeBytes 4 cert.tbsBytes.length ++ (cert.tbsBytes ++ cert.signature.toList) :=
    List.append_assoc _ _ _
  have front : cert.encode.take 4 = toBeBytes 4 cert.tbsBytes.length := by
    rw [whole]
    exact List.take_left' (length_toBeBytes 4 _)
  have rest : cert.encode.drop 4 = cert.tbsBytes ++ cert.signature.toList := by
    rw [whole]
    exact List.drop_left' (length_toBeBytes 4 _)
  have signature : vectorAt 64 (cert.tbsBytes ++ cert.signature.toList) cert.tbsBytes.length = cert.signature := by
    have field := vectorAt_append cert.tbsBytes [] cert.signature
    rwa [List.append_nil] at field
  have long : ¬cert.encode.length < 4 := by
    rw [whole,List.length_append,length_toBeBytes]
    omega
  have parsed : parseTbs cert.tbsBytes = .ok cert.fields := parseTbs_ok_iff.mpr ⟨canonical.valid,canonical.tbs⟩
  have available : ¬cert.tbsBytes.length > (cert.tbsBytes ++ cert.signature.toList).length := by
    rw [List.length_append]
    omega
  simp only [decode,long,if_false,front,rest,fromBeBytes_of_lt size,available,List.drop_left,List.take_left,
    Vector.length_toList,ne_eq,not_true_eq_false,parsed,signature]

end BindCert

theorem satAddI64_mem (a b : Int) : i64Min ≤ satAddI64 a b ∧ satAddI64 a b ≤ i64Max := by
  simp only [satAddI64,i64Min,i64Max]
  omega

theorem BindCertBuilder.canonical_of_build {suite : IdentitySuite} {keystore : Keystore} {builder : BindCertBuilder}
    {now : Int} {cert : BindCert} (clock : i64Min ≤ now ∧ now ≤ i64Max)
    (built : builder.build suite keystore now = .ok cert) : cert.Canonical := by
  unfold build at built
  dsimp only at built
  split at built
  · cases built
  · split at built
    · cases built
    · split_ifs at built with range attest alg commit period
      · split at built <;> cases built
      · split at built
        · cases built
        · split at built
          · cases built
          · obtain rfl := Except.ok.inj built
            exact ⟨⟨(not_and_or.mp alg).imp not_not.mp not_not.mp,
              fun none => not_not.mp (fun set => commit ⟨none,set⟩),Nat.not_lt.mp attest,
              satAddI64_mem _ _,clock,Int.not_le.mp period⟩,rfl⟩

structure UgcFields.Valid (fields : UgcFields) : Prop where
  epoch : fields.epoch < 256 ^ 8
  notAfter : i64Min ≤ fields.notAfter ∧ fields.notAfter ≤ i64Max
  issuedAt : i64Min ≤ fields.issuedAt ∧ fields.issuedAt ≤ i64Max
  period : fields.issuedAt < fields.notAfter

namespace Ugc

/-- Encodes and signs a grant with the host's keystore. -/
def encode (suite : IdentitySuite) (keystore : Keystore) (grantee : Key) (caps : Capabilities) (epoch : UInt64)
    (notAfter now : Int) : Except CryptoError Ugc :=
  let issuedAt := now
  if notAfter ≤ issuedAt then .error (.malformedUgc "not_after must be strictly greater than issued_at")
  else
    let fields : UgcFields := {
      granteeDeviceId := suite.sha256 grantee.toList
      capsRaw := caps.bits
      epoch := epoch.toNat
      notAfter := notAfter
      issuedAt := issuedAt }
    match keystore.sign (buildTbs fields) with
    | .error e => .error e
    | .ok signature => .ok ⟨vectorAt 73 (buildTbs fields) 0,signature,fields⟩

def tbsParts (fields : UgcFields) : List Bytes :=
  [ugcDomainTag,[ugcTbsVersion],[ugcFieldCount],fields.granteeDeviceId.toList,toBeBytes 4 fields.capsRaw.toNat,
    toBeBytes 8 fields.epoch,i64ToBe fields.notAfter,i64ToBe fields.issuedAt]

theorem buildTbs_eq (fields : UgcFields) : buildTbs fields = (tbsParts fields).flatten := by
  simp [buildTbs,tbsParts]

theorem map_length_tbsParts (fields : UgcFields) : (tbsParts fields).map List.length = [11,1,1,32,4,8,8,8] := by
  simp [tbsParts,ugcDomainTag,ascii]

theorem length_buildTbs (fields : UgcFields) : (buildTbs fields).length = 73 := by
  simp [buildTbs_eq,List.length_flatten,map_length_tbsParts]

/-- The signed bytes, field by field as the decoder reads them. -/
structure Layout (fields : UgcFields) (tbs : Bytes) : Prop where
  tag : (vectorAt 11 tbs 0).toList = ugcDomainTag
  version : (vectorAt 1 tbs 11).toList = [ugcTbsVersion]
  fieldCount : (vectorAt 1 tbs 12).toList = [ugcFieldCount]
  granteeDeviceId : vectorAt 32 tbs 13 = fields.granteeDeviceId
  caps : (vectorAt 4 tbs 45).toList = toBeBytes 4 fields.capsRaw.toNat
  epoch : (vectorAt 8 tbs 49).toList = toBeBytes 8 fields.epoch
  notAfter : (vectorAt 8 tbs 57).toList = i64ToBe fields.notAfter
  issuedAt : (vectorAt 8 tbs 65).toList = i64ToBe fields.issuedAt

variable {tbs : Bytes} {ugc : Ugc} {wire : Bytes}

theorem layout_iff {fields : UgcFields} (size : tbs.length = 73) :
    tbs = buildTbs fields ↔ Layout fields tbs := by
  have total : tbs.length = ((tbsParts fields).map List.length).sum := by
    rw [size,map_length_tbsParts]
    rfl
  have field (n start : Nat) (bound : start + n ≤ 73) : (tbs.drop start).take n = (vectorAt n tbs start).toList :=
    (toList_vectorAt (by omega)).symm
  have tag : tbs.take 11 = (vectorAt 11 tbs 0).toList := field 11 0 (by omega)
  rw [buildTbs_eq,eq_flatten_iff total,map_length_tbsParts]
  simp only [tbsParts,List.splitLengths_cons,List.splitLengths_nil,List.drop_drop,Nat.reduceAdd,List.cons.injEq,tag,
    field 1 11 (by omega),field 1 12 (by omega),field 32 13 (by omega),field 4 45 (by omega),field 8 49 (by omega),
    field 8 57 (by omega),field 8 65 (by omega),Vector.toList_inj,and_true]
  constructor
  · rintro ⟨tag,version,count,grantee,caps,epoch,notAfter,issuedAt⟩
    exact ⟨tag,version,count,grantee,caps,epoch,notAfter,issuedAt⟩
  · rintro ⟨tag,version,count,grantee,caps,epoch,notAfter,issuedAt⟩
    exact ⟨tag,version,count,grantee,caps,epoch,notAfter,issuedAt⟩

theorem part_ok_iff {n start : Nat} {bytes : Bytes} {reason : String} {v : Vector UInt8 n} :
    part n bytes start reason = .ok v ↔ start + n ≤ bytes.length ∧ vectorAt n bytes start = v := by
  by_cases inside : start + n ≤ bytes.length
  · have cut : slice? bytes start (start + n) = some (vectorAt n bytes start).toList :=
      slice?_eq_some_iff.mpr ⟨by omega,inside,by rw [Nat.add_sub_cancel_left,toList_vectorAt inside]⟩
    have read : part n bytes start reason = .ok (vectorAt n bytes start) := by
      simp only [part,cut,Option.bind_some,toVector,Vector.length_toList,dif_pos]
      rfl
    simp [read,inside]
  · have outside : slice? bytes start (start + n) = none := if_neg (fun both => inside both.2)
    simp [part,outside,inside]

structure Canonical (ugc : Ugc) : Prop where
  valid : ugc.fields.Valid
  tbs : ugc.tbsBytes.toList = buildTbs ugc.fields

theorem canonical_of_encode {suite : IdentitySuite} {keystore : Keystore} {grantee : Key} {caps : Capabilities}
    {epoch : UInt64} {notAfter now : Int} (expiry : i64Min ≤ notAfter ∧ notAfter ≤ i64Max)
    (clock : i64Min ≤ now ∧ now ≤ i64Max)
    (encoded : encode suite keystore grantee caps epoch notAfter now = .ok ugc) : ugc.Canonical := by
  unfold encode at encoded
  dsimp only at encoded
  split_ifs at encoded with period
  split at encoded
  · cases encoded
  · obtain rfl := Except.ok.inj encoded
    refine ⟨⟨epoch.toNat_lt,expiry,clock,Int.not_le.mp period⟩,?_⟩
    rw [toList_vectorAt (by rw [length_buildTbs]),List.drop_zero]
    exact List.take_of_length_le (length_buildTbs _).le

theorem wire_iff (size : wire.length = 141) : wire = ugc.wireBytes ↔
    (vectorAt 4 wire 0).toList = toBeBytes 4 ugcTbsLen ∧ vectorAt 73 wire 4 = ugc.tbsBytes ∧
      vectorAt 64 wire 77 = ugc.signature := by
  have parts : ugc.wireBytes = [toBeBytes 4 ugcTbsLen,ugc.tbsBytes.toList,ugc.signature.toList].flatten := by
    simp [wireBytes]
  have field (n start : Nat) (bound : start + n ≤ 141) : (wire.drop start).take n = (vectorAt n wire start).toList :=
    (toList_vectorAt (by omega)).symm
  have front : wire.take 4 = (vectorAt 4 wire 0).toList := field 4 0 (by omega)
  rw [parts,eq_flatten_iff (by simp [size])]
  simp [front,field 73 4 (by omega),field 64 77 (by omega),Vector.toList_inj]

def fieldsAt (tbs : Bytes) : UgcFields where
  granteeDeviceId := vectorAt 32 tbs 13
  capsRaw := BitVec.ofNat 32 (fromBeBytes (vectorAt 4 tbs 45).toList)
  epoch := fromBeBytes (vectorAt 8 tbs 49).toList
  notAfter := i64OfBe (vectorAt 8 tbs 57).toList
  issuedAt := i64OfBe (vectorAt 8 tbs 65).toList

/-- The checks of the decoder on a string of the right length, where no field is missing. -/
theorem decode_steps : decode wire = .ok ugc ↔
    wire.length = 141 ∧ fromBeBytes (vectorAt 4 wire 0).toList = ugcTbsLen ∧
      (vectorAt 11 (vectorAt 73 wire 4).toList 0).toList = ugcDomainTag ∧
      (vectorAt 1 (vectorAt 73 wire 4).toList 11).toList = [ugcTbsVersion] ∧
      (vectorAt 1 (vectorAt 73 wire 4).toList 12).toList = [ugcFieldCount] ∧
      ¬(fieldsAt (vectorAt 73 wire 4).toList).notAfter ≤ (fieldsAt (vectorAt 73 wire 4).toList).issuedAt ∧
      ⟨vectorAt 73 wire 4,vectorAt 64 wire 77,fieldsAt (vectorAt 73 wire 4).toList⟩ = ugc := by
  simp only [decode,ite_eq_ok_iff,throw_eq_ok,false_and,exists_false,and_false,false_or,not_not,bind_eq_ok_iff,ne_eq,
    pure,Except.pure,Except.ok.injEq,part_ok_iff,and_assoc,exists_and_left,exists_eq_left',Vector.length_toList,
    Nat.reduceAdd,Nat.reduceLeDiff,true_and,fieldsAt]
  constructor
  · rintro ⟨size,_,announced,_,_,tag,version,count,period,same⟩
    exact ⟨size,announced,tag,version,count,period,same⟩
  · rintro ⟨size,announced,tag,version,count,period,same⟩
    exact ⟨size,by omega,announced,by omega,by omega,tag,version,count,period,same⟩

theorem valid_fieldsAt (period : (fieldsAt tbs).issuedAt < (fieldsAt tbs).notAfter) :
    (fieldsAt tbs).Valid where
  epoch := fromBeBytes_toList_lt (vectorAt 8 tbs 49)
  notAfter := i64OfBe_mem Vector.length_toList
  issuedAt := i64OfBe_mem Vector.length_toList
  period := period

theorem layout_fieldsAt (tag : (vectorAt 11 tbs 0).toList = ugcDomainTag)
    (version : (vectorAt 1 tbs 11).toList = [ugcTbsVersion]) (count : (vectorAt 1 tbs 12).toList = [ugcFieldCount]) :
    Layout (fieldsAt tbs) tbs where
  tag := tag
  version := version
  fieldCount := count
  granteeDeviceId := rfl
  caps := by
    have word : (fieldsAt tbs).capsRaw.toNat = fromBeBytes (vectorAt 4 tbs 45).toList := by
      simp only [fieldsAt,BitVec.toNat_ofNat]
      exact Nat.mod_eq_of_lt (fromBeBytes_toList_lt (vectorAt 4 tbs 45))
    rw [word,toBeBytes_toList]
  epoch := (toBeBytes_toList (vectorAt 8 tbs 49)).symm
  notAfter := (i64ToBe_i64OfBe Vector.length_toList).symm
  issuedAt := (i64ToBe_i64OfBe Vector.length_toList).symm

theorem fieldsAt_eq {fields : UgcFields} (layout : Layout fields tbs) (valid : fields.Valid) :
    fieldsAt tbs = fields := by
  have caps : fromBeBytes (toBeBytes 4 fields.capsRaw.toNat) = fields.capsRaw.toNat :=
    fromBeBytes_of_lt fields.capsRaw.isLt
  simp only [fieldsAt,layout.granteeDeviceId,layout.caps,layout.epoch,layout.notAfter,layout.issuedAt,caps,
    fromBeBytes_of_lt valid.epoch,i64OfBe_i64ToBe valid.notAfter.1 valid.notAfter.2,
    i64OfBe_i64ToBe valid.issuedAt.1 valid.issuedAt.2,BitVec.ofNat_toNat,BitVec.setWidth_eq]

theorem decode_ok_iff : decode wire = .ok ugc ↔ ugc.Canonical ∧ wire = ugc.wireBytes := by
  rw [decode_steps]
  constructor
  · rintro ⟨size,announced,tag,version,count,period,rfl⟩
    have digits := toBeBytes_toList (vectorAt 4 wire 0)
    rw [announced] at digits
    have tbs := (layout_iff Vector.length_toList).mpr (layout_fieldsAt tag version count)
    exact ⟨⟨valid_fieldsAt (Int.not_le.mp period),tbs⟩,(wire_iff size).mpr ⟨digits.symm,rfl,rfl⟩⟩
  · rintro ⟨canonical,rfl⟩
    have size : ugc.wireBytes.length = 141 := by simp [wireBytes]
    obtain ⟨announced,tbs,signature⟩ := (wire_iff size).mp rfl
    have layout := (layout_iff Vector.length_toList).mp canonical.tbs
    rw [tbs,signature,announced,fieldsAt_eq layout canonical.valid]
    exact ⟨size,fromBeBytes_of_lt (by decide),layout.tag,layout.version,layout.fieldCount,
      Int.not_le.mpr canonical.valid.period,rfl⟩

end Ugc

/-- What decodes is the encoding of its fields and signature, and what is issued decodes to itself. -/
theorem credentials_have_one_encoding :
    (∀ wire cert, BindCert.decode wire = .ok cert → cert.encode = wire ∧ BindCert.buildTbs cert.fields = cert.tbsBytes) ∧
    (∀ wire ugc, Ugc.decode wire = .ok ugc → ugc.wireBytes = wire ∧ Ugc.buildTbs ugc.fields = ugc.tbsBytes.toList) ∧
    (∀ suite keystore (builder : BindCertBuilder) now cert, i64Min ≤ now ∧ now ≤ i64Max →
      builder.build suite keystore now = .ok cert → BindCert.decode cert.encode = .ok cert) ∧
    (∀ suite keystore grantee caps epoch notAfter now ugc, i64Min ≤ notAfter ∧ notAfter ≤ i64Max →
      i64Min ≤ now ∧ now ≤ i64Max → Ugc.encode suite keystore grantee caps epoch notAfter now = .ok ugc →
      Ugc.decode ugc.wireBytes = .ok ugc) ∧
    (∀ wire wire' cert cert', BindCert.decode wire = .ok cert → BindCert.decode wire' = .ok cert' →
      cert.fields = cert'.fields → cert.signature = cert'.signature → wire = wire') ∧
    (∀ wire wire' ugc ugc', Ugc.decode wire = .ok ugc → Ugc.decode wire' = .ok ugc' →
      ugc.fields = ugc'.fields → ugc.signature = ugc'.signature → wire = wire') := by
  refine ⟨?_,?_,?_,?_,?_,?_⟩
  · intro wire cert decoded
    exact ⟨BindCert.encode_of_decode decoded,(BindCert.canonical_of_decode decoded).tbs.symm⟩
  · intro wire ugc decoded
    obtain ⟨canonical,rfl⟩ := Ugc.decode_ok_iff.mp decoded
    exact ⟨rfl,canonical.tbs.symm⟩
  · intro suite keystore builder now cert clock built
    exact BindCert.decode_encode (BindCertBuilder.canonical_of_build clock built)
  · intro suite keystore grantee caps epoch notAfter now ugc expiry clock encoded
    exact Ugc.decode_ok_iff.mpr ⟨Ugc.canonical_of_encode expiry clock encoded,rfl⟩
  · intro wire wire' cert cert' decoded decoded' fields signature
    have tbs := (BindCert.canonical_of_decode decoded).tbs
    rw [← BindCert.encode_of_decode decoded,← BindCert.encode_of_decode decoded',BindCert.encode,BindCert.encode,tbs,
      (BindCert.canonical_of_decode decoded').tbs,fields,signature]
  · intro wire wire' ugc ugc' decoded decoded' fields signature
    obtain ⟨canonical,rfl⟩ := Ugc.decode_ok_iff.mp decoded
    obtain ⟨canonical',rfl⟩ := Ugc.decode_ok_iff.mp decoded'
    rw [Ugc.wireBytes,Ugc.wireBytes,canonical.tbs,canonical'.tbs,fields,signature]

/-- A device that signs with the front of what it signs. -/
def frontKeystore : Keystore := ⟨.ok (Vector.replicate 32 1),fun data => .ok (vectorAt 64 data 0),fun _ => .ok true⟩

def frontHash : IdentitySuite := ⟨fun _ _ _ => true,fun bytes => vectorAt 32 bytes 0⟩

def hourBuilder : BindCertBuilder :=
  { BindCertBuilder.new with noiseStatic := some (Vector.replicate 32 2), validForSecs := some 3600, platformAttest := [7] }

theorem hour_cert_decodes : ∃ cert, hourBuilder.build frontHash frontKeystore 1000 = .ok cert ∧
    BindCert.decode cert.encode = .ok cert := by
  obtain ⟨_,_,builds,_⟩ := credentials_have_one_encoding
  exact ⟨_,rfl,builds frontHash frontKeystore hourBuilder 1000 _ (by decide) rfl⟩

end Streamhaul
