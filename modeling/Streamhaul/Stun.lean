import Streamhaul.Text
import Streamhaul.Tlv

/-! STUN messages as the ICE agent reads and writes them: the binding method, the
attributes it knows, message integrity and fingerprint. HMAC-SHA1, CRC-32 and the
replacement text for bytes that are not UTF-8 are parameters. -/
namespace Streamhaul

open Tlv (u16At)

inductive IceError where
  | stunTruncated (needed have' : Nat)
  | stunAttrTruncated (attrType : UInt16)
  | badMagicCookie (cookie : UInt32)
  | integrityMismatch
  | fingerprintMismatch
  | invalidMessageTypeBits
  | messageLengthNotAligned (len : UInt16)
  | gatherFailed (reason : String)
  | checkFailed (reason : String)
  | transport (reason : String)
  | timeout
  | attrNotFound (attrType : UInt16)
  | unsupportedMethod (method : UInt16)
  | attrOrderingViolation (attr : String)
  deriving DecidableEq

structure StunSuite where
  hmacSha1 : Bytes → Bytes → Vector UInt8 20
  crc32 : Bytes → UInt32
  /-- What `from_utf8_lossy` makes of bytes that are not UTF-8. -/
  lossyText : Bytes → Text

/-- An IPv4 address is its four octets read as one big-endian word. -/
inductive SocketAddr where
  | v4 (ip : UInt32) (port : UInt16)
  | v6 (ip : Vector UInt8 16) (port : UInt16) (flowinfo scopeId : UInt32)
  deriving DecidableEq

def magicCookie : UInt32 := 0x2112a442
def stunHeaderLen : Nat := 20

inductive StunClass where
  | request
  | successResponse
  | errorResponse
  | indication
  deriving DecidableEq

inductive StunMethod where
  | binding
  deriving DecidableEq

inductive StunAttribute where
  | mappedAddress (addr : SocketAddr)
  | xorMappedAddress (addr : SocketAddr)
  | username (name : Text)
  | messageIntegrity (hmac : Vector UInt8 20)
  | fingerprint (crc : UInt32)
  | priority (p : UInt32)
  | useCandidate
  | iceControlled (tieBreaker : UInt64)
  | iceControlling (tieBreaker : UInt64)
  | errorCode (code : UInt16) (reason : Text)
  | unknownComprehensionRequired (types : List UInt16)
  | software (description : Text)
  | unknown (attrType : UInt16) (value : Bytes)
  deriving DecidableEq

abbrev TransactionId := Vector UInt8 12

structure StunMessage where
  class' : StunClass
  method : StunMethod
  transactionId : TransactionId
  attributes : List StunAttribute
  deriving DecidableEq

def encodeType (class' : StunClass) (method : StunMethod) : UInt16 :=
  let m : UInt16 := match method with
    | .binding => 0x0001
  let c : UInt16 := match class' with
    | .request => 0x0000
    | .indication => 0x0010
    | .successResponse => 0x0100
    | .errorResponse => 0x0110
  (((m &&& 0xf80) <<< 2) ||| ((m &&& 0x070) <<< 1) ||| (m &&& 0x00f)) ||| c

def decodeType (typeWord : UInt16) : Except IceError (StunClass × StunMethod) :=
  let c1 : UInt16 := (typeWord >>> 8) &&& 0x01
  let c0 : UInt16 := (typeWord >>> 4) &&& 0x01
  let class' : StunClass :=
    if c1 = 0 ∧ c0 = 0 then .request
    else if c1 = 0 ∧ c0 = 1 then .indication
    else if c1 = 1 ∧ c0 = 0 then .successResponse
    else if c1 = 1 ∧ c0 = 1 then .errorResponse
    else .request
  let high : UInt16 := (typeWord >>> 2) &&& 0xf80
  let middle : UInt16 := (typeWord >>> 1) &&& 0x070
  let low : UInt16 := typeWord &&& 0x00f
  let m := high ||| middle ||| low
  if m = 0x001 then .ok (class',.binding) else .error (.unsupportedMethod m)

def buildHeader (class' : StunClass) (method : StunMethod) (tid : TransactionId) (attrBodyLen : Nat) : Bytes :=
  be16 (encodeType class' method) ++ toBeBytes 2 (min attrBodyLen u16Max) ++ be32 magicCookie ++ tid.toList

def portMask : UInt16 := (magicCookie >>> 16).toUInt16

def encodeMappedAddress : SocketAddr → Bytes
  | .v4 ip port => [0x00,0x01] ++ be16 port ++ be32 ip
  | .v6 ip port _ _ => [0x00,0x02] ++ be16 port ++ ip.toList

/-- The 16-byte mask: the magic cookie, then the transaction id. -/
def xorMask (tid : TransactionId) : Vector UInt8 16 := vectorAt 16 (be32 magicCookie ++ tid.toList) 0

def encodeXorMappedAddress (addr : SocketAddr) (tid : TransactionId) : Bytes :=
  match addr with
  | .v4 ip port => [0x00,0x01] ++ be16 (port ^^^ portMask) ++ be32 (ip ^^^ magicCookie)
  | .v6 ip port _ _ =>
    [0x00,0x02] ++ be16 (port ^^^ portMask) ++ (Vector.zipWith (· ^^^ ·) ip (xorMask tid)).toList

/-- Both address decoders: a family byte, a port and an address, each behind a mask. -/
def decodeAddress (portXor : UInt16) (v4Xor : UInt32) (v6Xor : Vector UInt8 16) (value : Bytes)
    (attrType : UInt16) : Except IceError SocketAddr :=
  if value.length < 4 then .error (.stunAttrTruncated attrType)
  else
    let port := u16At value 2 ^^^ portXor
    if value.getD 1 0 = 0x01 then
      if value.length < 8 then .error (.stunAttrTruncated attrType)
      else .ok (.v4 (UInt32.ofNat (fromBeBytes ((value.drop 4).take 4)) ^^^ v4Xor) port)
    else if value.getD 1 0 = 0x02 then
      if value.length < 20 then .error (.stunAttrTruncated attrType)
      else .ok (.v6 (Vector.zipWith (· ^^^ ·) (vectorAt 16 value 4) v6Xor) port 0 0)
    else .error (.stunAttrTruncated attrType)

def decodeXorMappedAddress (value : Bytes) (tid : TransactionId) (attrType : UInt16) :
    Except IceError SocketAddr :=
  decodeAddress portMask magicCookie (xorMask tid) value attrType

def decodeMappedAddress (value : Bytes) (attrType : UInt16) : Except IceError SocketAddr :=
  decodeAddress 0 0 (Vector.replicate 16 0) value attrType

def attributeTlv (attr : StunAttribute) (tid : TransactionId) : UInt16 × Bytes :=
  match attr with
  | .mappedAddress addr => (0x0001,encodeMappedAddress addr)
  | .xorMappedAddress addr => (0x0020,encodeXorMappedAddress addr tid)
  | .username name => (0x0006,name.asBytes)
  | .messageIntegrity hmac => (0x0008,hmac.toList)
  | .fingerprint crc => (0x8028,be32 crc)
  | .priority p => (0x0024,be32 p)
  | .useCandidate => (0x0025,[])
  | .iceControlled tieBreaker => (0x8029,be64 tieBreaker)
  | .iceControlling tieBreaker => (0x802a,be64 tieBreaker)
  | .errorCode code reason => (0x0009,[0,0,(code / 100).toUInt8,(code % 100).toUInt8] ++ reason.asBytes)
  | .unknownComprehensionRequired types => (0x000a,types.flatMap be16)
  | .software description => (0x8022,description.asBytes)
  | .unknown attrType value => (attrType,value)

def encodeOneAttribute (attr : StunAttribute) (tid : TransactionId) : Bytes :=
  Tlv.item (attributeTlv attr tid).1 (attributeTlv attr tid).2

def encodeAttributes (attrs : List StunAttribute) (tid : TransactionId) : Bytes :=
  attrs.flatMap (fun attr => encodeOneAttribute attr tid)

/-- `chunks_exact(2)` read as 16-bit words. -/
def u16Chunks : Bytes → List UInt16
  | a :: b :: rest => UInt16.ofNat (fromBeBytes [a,b]) :: u16Chunks rest
  | _ => []

def fromUtf8Lossy (suite : StunSuite) (bytes : Bytes) : Text :=
  match Text.fromUtf8 bytes with
  | some s => s
  | none => suite.lossyText bytes

/-- A field read from the front of a value that has to hold at least `n` bytes. -/
def fixedValue (n : Nat) (attrType : UInt16) (value : Bytes) (attr : Bytes → StunAttribute) :
    Except IceError StunAttribute :=
  if value.length < n then .error (.stunAttrTruncated attrType) else .ok (attr (value.take n))

def decodeOneAttribute (suite : StunSuite) (tid : TransactionId) (attrType : UInt16) (value : Bytes) :
    Except IceError StunAttribute :=
  if attrType = 0x0001 then (decodeMappedAddress value attrType).map .mappedAddress
  else if attrType = 0x0006 then
    match Text.fromUtf8 value with
    | none => .error (.stunAttrTruncated attrType)
    | some name => .ok (.username name)
  else if attrType = 0x0008 then fixedValue 20 attrType value (fun v => .messageIntegrity (vectorAt 20 v 0))
  else if attrType = 0x0009 then
    if value.length < 4 then .error (.stunAttrTruncated attrType)
    else
      let class' := (value.getD 2 0).toNat
      let number := (value.getD 3 0).toNat
      .ok (.errorCode (UInt16.ofNat (satAdd u16Max (min (class' * 100) u16Max) number))
        (fromUtf8Lossy suite (value.drop 4)))
  else if attrType = 0x000a then
    if value.length % 2 ≠ 0 then .error (.stunAttrTruncated attrType)
    else .ok (.unknownComprehensionRequired (u16Chunks value))
  else if attrType = 0x0020 then (decodeXorMappedAddress value tid attrType).map .xorMappedAddress
  else if attrType = 0x0024 then fixedValue 4 attrType value (fun v => .priority (UInt32.ofNat (fromBeBytes v)))
  else if attrType = 0x0025 then .ok .useCandidate
  else if attrType = 0x8022 then .ok (.software (fromUtf8Lossy suite value))
  else if attrType = 0x8028 then
    fixedValue 4 attrType value (fun v => .fingerprint (UInt32.ofNat (fromBeBytes v)))
  else if attrType = 0x8029 then
    fixedValue 8 attrType value (fun v => .iceControlled (UInt64.ofNat (fromBeBytes v)))
  else if attrType = 0x802a then
    fixedValue 8 attrType value (fun v => .iceControlling (UInt64.ofNat (fromBeBytes v)))
  else .ok (.unknown attrType value)

def decodeAttributes (suite : StunSuite) (attrBytes : Bytes) (tid : TransactionId) :
    Except IceError (List StunAttribute) :=
  Tlv.decodeFrom (decodeOneAttribute suite tid)
    (fun pos => .stunTruncated (pos + 4) (attrBytes.length + stunHeaderLen)) .stunAttrTruncated 0 attrBytes

def findAttrOffset (raw : Bytes) (targetType : UInt16) : Except IceError Nat :=
  if raw.length < stunHeaderLen then .error (.stunTruncated stunHeaderLen raw.length)
  else
    let total := stunHeaderLen + (u16At raw 2).toNat
    match slice? raw stunHeaderLen total with
    | none => .error (.stunTruncated total raw.length)
    | some attrBytes =>
      (Tlv.findFrom .stunAttrTruncated (.attrNotFound targetType) targetType 0 attrBytes).map (stunHeaderLen + ·)

/-- Overwrites the length field of a message that has one. -/
def setLength (bytes : Bytes) (len : Nat) : Bytes :=
  if 4 ≤ bytes.length then bytes.take 2 ++ toBeBytes 2 (min len u16Max) ++ bytes.drop 4 else bytes

namespace StunMessage

def newBindingRequest (tid : TransactionId) : StunMessage := ⟨.request,.binding,tid,[]⟩

def newBindingResponse (tid : TransactionId) : StunMessage := ⟨.successResponse,.binding,tid,[]⟩

def encode (msg : StunMessage) : Bytes :=
  let attrBytes := encodeAttributes msg.attributes msg.transactionId
  buildHeader msg.class' msg.method msg.transactionId attrBytes.length ++ attrBytes

def encodeWithIntegrity (suite : StunSuite) (msg : StunMessage) (key : Bytes) : Bytes :=
  let attrBytes := encodeAttributes msg.attributes msg.transactionId
  let out := buildHeader msg.class' msg.method msg.transactionId (attrBytes.length + 24) ++ attrBytes
  out ++ be16 0x0008 ++ be16 20 ++ (suite.hmacSha1 key out).toList

def encodeWithIntegrityAndFingerprint (suite : StunSuite) (msg : StunMessage) (key : Bytes) : Bytes :=
  let out := msg.encodeWithIntegrity suite key
  let out := setLength out (out.length + 8 - stunHeaderLen)
  out ++ be16 0x8028 ++ be16 4 ++ be32 (suite.crc32 out ^^^ 0x5354554e)

def verifyIntegrity (suite : StunSuite) (raw key : Bytes) : Except IceError Unit :=
  match findAttrOffset raw 0x0008 with
  | .error (.attrNotFound _) => .error .integrityMismatch
  | .error other => .error other
  | .ok miOffset =>
    let miEnd := miOffset + 24
    let bodyEnd := stunHeaderLen + (u16At raw 2).toNat
    let trailer := (slice? raw miEnd bodyEnd).getD []
    if miEnd < bodyEnd ∧ ¬(trailer.length = 8 ∧ slice? trailer 0 2 = some (be16 0x8028)) then
      .error (.attrOrderingViolation "MESSAGE-INTEGRITY")
    else match slice? raw 0 miOffset with
      | none => .error (.stunTruncated miOffset raw.length)
      | some covered =>
        let expected := suite.hmacSha1 key (setLength covered (miOffset + 24 - stunHeaderLen))
        match slice? raw (miOffset + 4) (miOffset + 4 + 20) with
        | none => .error .integrityMismatch
        | some stored => if expected.toList = stored then .ok () else .error .integrityMismatch

def verifyFingerprint (suite : StunSuite) (raw : Bytes) : Except IceError Unit :=
  match findAttrOffset raw 0x8028 with
  | .error (.attrNotFound _) => .error .fingerprintMismatch
  | .error other => .error other
  | .ok fpOffset =>
    if fpOffset + 8 ≠ stunHeaderLen + (u16At raw 2).toNat then .error (.attrOrderingViolation "FINGERPRINT")
    else match slice? raw 0 fpOffset with
      | none => .error (.stunTruncated fpOffset raw.length)
      | some covered =>
        let computed := suite.crc32 (setLength covered (fpOffset + 8 - stunHeaderLen)) ^^^ 0x5354554e
        match slice? raw (fpOffset + 4) (fpOffset + 4 + 4) with
        | none => .error .fingerprintMismatch
        | some stored =>
          if computed = UInt32.ofNat (fromBeBytes stored) then .ok () else .error .fingerprintMismatch

def decode (suite : StunSuite) (raw : Bytes) : Except IceError StunMessage :=
  if raw.length < stunHeaderLen then .error (.stunTruncated stunHeaderLen raw.length)
  else
    let typeWord := u16At raw 0
    let msgLen := u16At raw 2
    let cookie := UInt32.ofNat (fromBeBytes [raw.getD 4 0,raw.getD 5 0,raw.getD 6 0,raw.getD 7 0])
    if typeWord &&& 0xc000 ≠ 0 then .error .invalidMessageTypeBits
    else if msgLen % 4 ≠ 0 then .error (.messageLengthNotAligned msgLen)
    else if cookie ≠ magicCookie then .error (.badMagicCookie cookie)
    else match decodeType typeWord with
      | .error e => .error e
      | .ok (class',method) =>
        let transactionId := vectorAt 12 raw 8
        let totalLen := stunHeaderLen + msgLen.toNat
        if raw.length < totalLen then .error (.stunTruncated totalLen raw.length)
        else match decodeAttributes suite ((raw.drop stunHeaderLen).take msgLen.toNat) transactionId with
          | .error e => .error e
          | .ok attributes => .ok ⟨class',method,transactionId,attributes⟩

end StunMessage

end Streamhaul
