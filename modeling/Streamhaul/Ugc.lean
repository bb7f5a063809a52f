import Streamhaul.CryptoPrimitives

/-! Unattended grant certificates: a fixed 141-byte wire form, five ordered checks. -/
namespace Streamhaul

/-- A `u32` of flag bits. -/
structure Capabilities where
  bits : BitVec 32
  deriving DecidableEq, Repr

namespace Capabilities

def view : Capabilities := ⟨1#32⟩
def control : Capabilities := ⟨2#32⟩
def clipboard : Capabilities := ⟨4#32⟩
def file : Capabilities := ⟨8#32⟩
def audio : Capabilities := ⟨16#32⟩
def elevation : Capabilities := ⟨32#32⟩
def all : Capabilities := ⟨63#32⟩

def inter (a b : Capabilities) : Capabilities := ⟨a.bits &&& b.bits⟩

def contains (a b : Capabilities) : Bool := a.bits &&& b.bits == b.bits

def fromBitsTruncate (bits : BitVec 32) : Capabilities := ⟨bits &&& all.bits⟩

theorem contains_inter (a b c : Capabilities) :
    (a.inter b).contains c = true ↔ a.contains c = true ∧ b.contains c = true := by
  simp only [contains,inter,beq_iff_eq]
  constructor
  · intro both
    constructor
    · rw [← both]
      ext i
      simp only [BitVec.getElem_and]
      cases a.bits[i] <;> simp
    · rw [← both]
      ext i
      simp only [BitVec.getElem_and]
      cases b.bits[i] <;> simp
  · rintro ⟨left,right⟩
    rw [BitVec.and_assoc,right,left]

end Capabilities

/-- Signature verification against a device's public key, and its fingerprint hash. -/
structure IdentitySuite where
  verifyStrict : Key → Bytes → Vector UInt8 64 → Bool
  sha256 : Bytes → Key

def ugcDomainTag : Bytes := ascii "SHP-UGC" ++ [0,0,0,0]
def ugcTbsVersion : UInt8 := 0x01
def ugcFieldCount : UInt8 := 0x05
def ugcTbsLen : Nat := 73
def ugcWireLen : Nat := 4 + ugcTbsLen + 64
def clockSkewToleranceSecs : Int := 300

structure UgcFields where
  granteeDeviceId : Key
  capsRaw : BitVec 32
  epoch : Nat
  notAfter : Int
  issuedAt : Int
  deriving DecidableEq

/-- The received bytes are kept next to the fields parsed from them. -/
structure Ugc where
  tbsBytes : Vector UInt8 73
  signature : Vector UInt8 64
  fields : UgcFields
  deriving DecidableEq

def i64OfBe (bytes : Bytes) : Int :=
  if fromBeBytes bytes < 2 ^ 63 then fromBeBytes bytes else fromBeBytes bytes - 2 ^ 64

def i64ToBe (value : Int) : Bytes := toBeBytes 8 (value % 2 ^ 64).toNat

def toVector (n : Nat) (bytes : Bytes) : Option (Vector UInt8 n) :=
  if size : bytes.length = n then some ⟨bytes.toArray,by simpa using size⟩ else none

namespace Ugc

def buildTbs (fields : UgcFields) : Bytes :=
  ugcDomainTag ++ [ugcTbsVersion,ugcFieldCount] ++ fields.granteeDeviceId.toList ++
    toBeBytes 4 fields.capsRaw.toNat ++ toBeBytes 8 fields.epoch ++
    i64ToBe fields.notAfter ++ i64ToBe fields.issuedAt

def part (n : Nat) (bytes : Bytes) (start : Nat) (reason : String) :
    Except CryptoError (Vector UInt8 n) :=
  match (slice? bytes start (start + n)).bind (toVector n) with
  | none => .error (.malformedUgc reason)
  | some v => .ok v

/-- Structural validation of untrusted wire bytes, the first of the five checks. -/
def decode (wire : Bytes) : Except CryptoError Ugc := do
  if wire.length ≠ ugcWireLen then
    throw (.malformedUgc "UGC wire length must be exactly 141 bytes (4+73+64)")
  let tbsLen ← part 4 wire 0 "lp32 prefix conversion failed"
  if fromBeBytes tbsLen.toList ≠ ugcTbsLen then
    throw (.malformedUgc "lp32 length must be exactly 73 (UGC_TBS_LEN)")
  let tbs ← part 73 wire 4 "wire too short for TBS"
  let signature ← part 64 wire 77 "signature bytes must be exactly 64 bytes"
  let tag ← part 11 tbs.toList 0 "TBS too short for domain tag"
  if tag.toList ≠ ugcDomainTag then throw (.malformedUgc "domain tag mismatch")
  let version ← part 1 tbs.toList 11 "TBS too short for version byte"
  if version.toList ≠ [ugcTbsVersion] then throw (.malformedUgc "unsupported TBS version")
  let fieldCount ← part 1 tbs.toList 12 "TBS too short for field count"
  if fieldCount.toList ≠ [ugcFieldCount] then throw (.malformedUgc "field count mismatch")
  let granteeDeviceId ← part 32 tbs.toList 13 "TBS too short for GRANTEE_DEVICE_ID"
  let caps ← part 4 tbs.toList 45 "TBS too short for CAPS"
  let epoch ← part 8 tbs.toList 49 "TBS too short for EPOCH"
  let notAfter ← part 8 tbs.toList 57 "TBS too short for NOT_AFTER"
  let issuedAt ← part 8 tbs.toList 65 "TBS too short for ISSUED_AT"
  if i64OfBe notAfter.toList ≤ i64OfBe issuedAt.toList then
    throw (.malformedUgc "NOT_AFTER must be strictly greater than ISSUED_AT")
  return {
    tbsBytes := tbs
    signature := signature
    fields := {
      granteeDeviceId := granteeDeviceId
      capsRaw := BitVec.ofNat 32 (fromBeBytes caps.toList)
      epoch := fromBeBytes epoch.toList
      notAfter := i64OfBe notAfter.toList
      issuedAt := i64OfBe issuedAt.toList } }

def wireBytes (ugc : Ugc) : Bytes :=
  toBeBytes 4 ugcTbsLen ++ ugc.tbsBytes.toList ++ ugc.signature.toList

/-- Checks two to five: signature, grantee, validity period, epoch floor. -/
def verify (suite : IdentitySuite) (ugc : Ugc) (hostIdentity granteePeerIdentity : Key) (minEpoch : Nat)
    (now : Int) : Except CryptoError Capabilities :=
  if suite.verifyStrict hostIdentity ugc.tbsBytes.toList ugc.signature = false then .error .ugcBadSignature
  else if ugc.fields.granteeDeviceId ≠ suite.sha256 granteePeerIdentity.toList then .error .ugcWrongGrantee
  else if satAddI64 ugc.fields.notAfter clockSkewToleranceSecs ≤ now then .error .ugcExpired
  else if satAddI64 now clockSkewToleranceSecs < ugc.fields.issuedAt then .error .ugcExpired
  else if ugc.fields.epoch < minEpoch then .error .ugcRevoked
  else .ok (Capabilities.fromBitsTruncate ugc.fields.capsRaw)

/-- Identity checks that pass once pass always; what remains are the clock and the floor. -/
structure Identified (suite : IdentitySuite) (ugc : Ugc) (hostIdentity granteePeerIdentity : Key) :
    Prop where
  signed : suite.verifyStrict hostIdentity ugc.tbsBytes.toList ugc.signature = true
  grantee : ugc.fields.granteeDeviceId = suite.sha256 granteePeerIdentity.toList

theorem verify_identified {suite : IdentitySuite} {ugc : Ugc} {host grantee : Key}
    (identified : Identified suite ugc host grantee) (minEpoch : Nat) (now : Int) :
    ugc.verify suite host grantee minEpoch now =
      if satAddI64 ugc.fields.notAfter clockSkewToleranceSecs ≤ now then .error .ugcExpired
      else if satAddI64 now clockSkewToleranceSecs < ugc.fields.issuedAt then .error .ugcExpired
      else if ugc.fields.epoch < minEpoch then .error .ugcRevoked
      else .ok (Capabilities.fromBitsTruncate ugc.fields.capsRaw) := by
  simp [verify,identified.signed,identified.grantee]

/-- What an accepted certificate has passed. -/
structure Accepted (suite : IdentitySuite) (ugc : Ugc) (host grantee : Key) (minEpoch : Nat) (now : Int) :
    Prop where
  identified : Identified suite ugc host grantee
  unexpired : now < satAddI64 ugc.fields.notAfter clockSkewToleranceSecs
  issued : ugc.fields.issuedAt ≤ satAddI64 now clockSkewToleranceSecs
  floor : minEpoch ≤ ugc.fields.epoch

theorem verify_accepted {suite : IdentitySuite} {ugc : Ugc} {host grantee : Key} {minEpoch : Nat} {now : Int}
    {caps : Capabilities} (accepted : ugc.verify suite host grantee minEpoch now = .ok caps) :
    Accepted suite ugc host grantee minEpoch now ∧
      caps = Capabilities.fromBitsTruncate ugc.fields.capsRaw := by
  unfold verify at accepted
  split_ifs at accepted with unsigned stranger expired early revoked
  cases accepted
  exact ⟨⟨⟨by simpa using unsigned,not_not.mp stranger⟩,not_le.mp expired,not_lt.mp early,
    not_lt.mp revoked⟩,rfl⟩

end Ugc

end Streamhaul
