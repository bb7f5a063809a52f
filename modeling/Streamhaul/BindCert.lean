import Streamhaul.Ugc

/-! The certificate that binds a Noise static key to a device identity: its canonical bytes, the
structural decoder, and the ordered checks a verifier makes. Ed25519 and SHA-256 are parameters. -/
namespace Streamhaul

def bindCertDomainTag : Bytes := ascii "SHP-BINDCERT"
def bindCertTbsVersion : UInt8 := 0x01
def bindCertFieldCount : UInt8 := 0x06
def maxPlatformAttestLen : Nat := 4096
def bindCertTbsMinLen : Nat := 129
def dtlsFprAlgNone : UInt8 := 0x00
def dtlsFprAlgSha256 : UInt8 := 0x01
def bindCertValiditySecs : Int := 24 * 60 * 60

structure DtlsCommitment where
  alg : UInt8
  commit : Key
  deriving DecidableEq

/-- A peer's committed fingerprint, read from its certificate. -/
structure DtlsPin where
  alg : UInt8
  commit : Key
  deriving DecidableEq

structure TbsFields where
  deviceIdDigest : Key
  noiseStatic : Key
  dtlsFprAlg : UInt8
  dtlsFprCommit : Key
  platformAttest : Bytes
  notAfter : Int
  issuedAt : Int
  deriving DecidableEq

/-- The received bytes are kept next to the fields parsed from them. -/
structure BindCert where
  tbsBytes : Bytes
  signature : Vector UInt8 64
  fields : TbsFields
  deriving DecidableEq

/-- What a device offers: its public key, signatures and the trust store. -/
structure Keystore where
  deviceIdentity : Except CryptoError Key
  sign : Bytes → Except CryptoError (Vector UInt8 64)
  isTrusted : Key → Except CryptoError Bool

namespace BindCert

def buildTbs (fields : TbsFields) : Bytes :=
  bindCertDomainTag ++ [bindCertTbsVersion,bindCertFieldCount] ++ fields.deviceIdDigest.toList ++
    fields.noiseStatic.toList ++ [fields.dtlsFprAlg] ++ fields.dtlsFprCommit.toList ++
    toBeBytes 2 fields.platformAttest.length ++ fields.platformAttest ++
    i64ToBe fields.notAfter ++ i64ToBe fields.issuedAt

/-- The part of `decode` that reads the signed bytes. -/
def parseTbs (tbs : Bytes) : Except CryptoError TbsFields :=
  if tbs.length < bindCertTbsMinLen then .error (.malformedBindCert "TBS too short for fixed fields")
  else if tbs.take 12 ≠ bindCertDomainTag then .error (.malformedBindCert "domain tag mismatch")
  else if tbs.getD 12 0 ≠ bindCertTbsVersion then .error (.malformedBindCert "unsupported TBS version")
  else if tbs.getD 13 0 ≠ bindCertFieldCount then .error (.malformedBindCert "field count mismatch")
  else
    let dtlsFprAlg := tbs.getD 78 0
    let dtlsFprCommit := vectorAt 32 tbs 79
    if dtlsFprAlg ≠ dtlsFprAlgNone ∧ dtlsFprAlg ≠ dtlsFprAlgSha256 then
      .error (.malformedBindCert "unknown DTLS_FPR_ALG")
    else if dtlsFprAlg = dtlsFprAlgNone ∧ dtlsFprCommit ≠ Vector.replicate 32 0 then
      .error (.malformedBindCert "DTLS_FPR_COMMIT must be zero when ALG=0x00")
    else
      let paLen := fromBeBytes ((tbs.drop 111).take 2)
      if paLen > maxPlatformAttestLen then .error (.malformedBindCert "PLATFORM_ATTEST_LEN exceeds 4096")
      else if tbs.length ≠ bindCertTbsMinLen + paLen then
        .error (.malformedBindCert "TBS length does not match computed expected length")
      else
        let notAfter := i64OfBe ((tbs.drop (113 + paLen)).take 8)
        let issuedAt := i64OfBe ((tbs.drop (121 + paLen)).take 8)
        if notAfter ≤ issuedAt then
          .error (.malformedBindCert "NOT_AFTER must be strictly greater than ISSUED_AT")
        else .ok {
          deviceIdDigest := vectorAt 32 tbs 14
          noiseStatic := vectorAt 32 tbs 46
          dtlsFprAlg := dtlsFprAlg
          dtlsFprCommit := dtlsFprCommit
          platformAttest := (tbs.drop 113).take paLen
          notAfter := notAfter
          issuedAt := issuedAt }

/-- Structural validation of untrusted wire bytes. -/
def decode (wire : Bytes) : Except CryptoError BindCert :=
  if wire.length < 4 then .error (.malformedBindCert "input too short for lp32 prefix")
  else
    let tbsLen := fromBeBytes (wire.take 4)
    let afterPrefix := wire.drop 4
    if tbsLen > afterPrefix.length then .error (.malformedBindCert "lp32 length exceeds available input")
    else if (afterPrefix.drop tbsLen).length ≠ 64 then
      .error (.malformedBindCert "expected exactly 64 signature bytes after TBS")
    else match parseTbs (afterPrefix.take tbsLen) with
      | .error e => .error e
      | .ok fields => .ok ⟨afterPrefix.take tbsLen,vectorAt 64 afterPrefix tbsLen,fields⟩

def encode (cert : BindCert) : Bytes := toBeBytes 4 cert.tbsBytes.length ++ cert.tbsBytes ++ cert.signature.toList

def dtlsPin (cert : BindCert) : Option DtlsPin :=
  if cert.fields.dtlsFprAlg = dtlsFprAlgSha256 then some ⟨cert.fields.dtlsFprAlg,cert.fields.dtlsFprCommit⟩ else none

/-- A WebRTC peer must have committed a fingerprint that is not zero. -/
def requireWebrtcDtlsPin (cert : BindCert) : Except CryptoError Key :=
  if cert.fields.dtlsFprAlg ≠ dtlsFprAlgSha256 then .error .dtlsBindingMissing
  else if cert.fields.dtlsFprCommit = Vector.replicate 32 0 then .error .dtlsBindingMissing
  else .ok cert.fields.dtlsFprCommit

/-- Checks two to five: signature, identity, Noise static, validity period. -/
def verify (suite : IdentitySuite) (cert : BindCert) (peerIdentity liveNoiseStatic : Key) (now : Int) :
    Except CryptoError Unit :=
  if suite.verifyStrict peerIdentity cert.tbsBytes cert.signature = false then .error .signature
  else if suite.sha256 peerIdentity.toList ≠ cert.fields.deviceIdDigest then
    .error (.malformedBindCert "DEVICE_ID does not match SHA-256 of peer's Ed25519 public key")
  else if cert.fields.noiseStatic ≠ liveNoiseStatic then .error .noiseStaticMismatch
  else if cert.fields.notAfter ≤ now then .error .bindCertExpired
  else if cert.fields.issuedAt > satAddI64 now clockSkewToleranceSecs then .error .bindCertNotYetValid
  else .ok ()

/-- What a verified certificate has passed. -/
structure Verified (suite : IdentitySuite) (cert : BindCert) (peerIdentity liveNoiseStatic : Key) (now : Int) : Prop where
  signed : suite.verifyStrict peerIdentity cert.tbsBytes cert.signature = true
  identity : cert.fields.deviceIdDigest = suite.sha256 peerIdentity.toList
  bound : cert.fields.noiseStatic = liveNoiseStatic
  unexpired : now < cert.fields.notAfter
  issued : cert.fields.issuedAt ≤ satAddI64 now clockSkewToleranceSecs

variable {cert : BindCert}

theorem verify_ok {suite : IdentitySuite} {peer live : Key} {now : Int}
    (accepted : cert.verify suite peer live now = .ok ()) : Verified suite cert peer live now := by
  unfold verify at accepted
  split_ifs at accepted with unsigned stranger other expired early
  exact ⟨by simpa using unsigned,(not_not.mp stranger).symm,not_not.mp other,not_le.mp expired,not_lt.mp early⟩

structure Framed (wire : Bytes) (cert : BindCert) : Prop where
  lengthField : 4 ≤ wire.length
  available : fromBeBytes (wire.take 4) ≤ (wire.drop 4).length
  trailing : ((wire.drop 4).drop (fromBeBytes (wire.take 4))).length = 64
  tbs : cert.tbsBytes = (wire.drop 4).take (fromBeBytes (wire.take 4))
  signature : cert.signature = vectorAt 64 (wire.drop 4) (fromBeBytes (wire.take 4))
  parsed : parseTbs cert.tbsBytes = .ok cert.fields

theorem decode_ok {wire : Bytes} (decoded : decode wire = .ok cert) : Framed wire cert := by
  unfold decode at decoded
  dsimp only at decoded
  split_ifs at decoded with short long tail
  cases parsed : parseTbs ((wire.drop 4).take (fromBeBytes (wire.take 4))) with
  | error e => simp [parsed] at decoded
  | ok fields =>
    simp only [parsed,Except.ok.injEq] at decoded
    subst decoded
    exact ⟨not_lt.mp short,not_lt.mp long,not_not.mp tail,rfl,rfl,parsed⟩

theorem encode_of_decode {wire : Bytes} (decoded : decode wire = .ok cert) : cert.encode = wire := by
  have framed := decode_ok decoded
  have trailing := framed.trailing
  rw [List.length_drop] at trailing
  have size : cert.tbsBytes.length = fromBeBytes (wire.take 4) := by
    rw [framed.tbs,List.length_take,min_eq_left framed.available]
  have front : toBeBytes 4 (fromBeBytes (wire.take 4)) = wire.take 4 := by
    have whole := toBeBytes_fromBeBytes (wire.take 4)
    rwa [List.length_take,min_eq_left framed.lengthField] at whole
  have rest : cert.signature.toList = (wire.drop 4).drop (fromBeBytes (wire.take 4)) := by
    rw [framed.signature,toList_vectorAt (by omega),List.take_of_length_le framed.trailing.le]
  unfold encode
  rw [size,front,rest,framed.tbs,List.append_assoc,List.take_append_drop,List.take_append_drop]

end BindCert

structure BindCertBuilder where
  noiseStatic : Option Key
  validForSecs : Option Int
  dtlsFprAlg : UInt8
  dtlsFprCommit : Key
  platformAttest : Bytes

namespace BindCertBuilder

def new : BindCertBuilder := ⟨none,none,dtlsFprAlgNone,Vector.replicate 32 0,[]⟩

def withDtlsCommitment (builder : BindCertBuilder) (commitment : DtlsCommitment) : BindCertBuilder :=
  { builder with dtlsFprAlg := commitment.alg, dtlsFprCommit := commitment.commit }

def build (suite : IdentitySuite) (keystore : Keystore) (builder : BindCertBuilder) (now : Int) :
    Except CryptoError BindCert :=
  match builder.noiseStatic with
  | none => .error (.malformedBindCert "noise_static not set on BindCertBuilder")
  | some noiseStatic =>
    match builder.validForSecs with
    | none => .error (.malformedBindCert "valid_for_secs not set on BindCertBuilder")
    | some validForSecs =>
      if validForSecs ≤ 0 ∨ validForSecs > bindCertValiditySecs then
        .error (.malformedBindCert "valid_for_secs out of range (must be 1..=BIND_CERT_VALIDITY_SECS)")
      else if builder.platformAttest.length > maxPlatformAttestLen then
        .error (.malformedBindCert "platform_attest blob exceeds 4096 bytes")
      else if builder.dtlsFprAlg ≠ dtlsFprAlgNone ∧ builder.dtlsFprAlg ≠ dtlsFprAlgSha256 then
        .error (.malformedBindCert "unknown DTLS_FPR_ALG")
      else if builder.dtlsFprAlg = dtlsFprAlgNone ∧ builder.dtlsFprCommit ≠ Vector.replicate 32 0 then
        .error (.malformedBindCert "DTLS_FPR_COMMIT must be zero when ALG=0x00")
      else match keystore.deviceIdentity with
        | .error e => .error e
        | .ok identity =>
          let notAfter := satAddI64 now validForSecs
          if notAfter ≤ now then
            .error (.malformedBindCert "valid_for_secs must be positive (not_after must exceed issued_at)")
          else
            let fields : TbsFields := {
              deviceIdDigest := suite.sha256 identity.toList
              noiseStatic := noiseStatic
              dtlsFprAlg := builder.dtlsFprAlg
              dtlsFprCommit := builder.dtlsFprCommit
              platformAttest := builder.platformAttest
              notAfter := notAfter
              issuedAt := now }
            match keystore.sign (BindCert.buildTbs fields) with
            | .error e => .error e
            | .ok signature => .ok ⟨BindCert.buildTbs fields,signature,fields⟩

end BindCertBuilder

end Streamhaul
