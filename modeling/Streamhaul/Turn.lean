import Streamhaul.Stun

/-! TURN messages and the TURN client: the challenge sequence of an Allocate request, its
refreshes, permissions and channels. The clock, the outcome of a send and the transaction
ids of the random generator are given from outside; HMAC-SHA1 and MD5 are parameters. -/
namespace Streamhaul

open Tlv (u16At)

def methodAllocate : UInt16 := 0x003
def methodRefresh : UInt16 := 0x004
def methodSend : UInt16 := 0x006
def methodData : UInt16 := 0x007
def methodCreatePermission : UInt16 := 0x008
def methodChannelBind : UInt16 := 0x009

def channelMin : UInt16 := 0x4000
def channelMax : UInt16 := 0x7fff

inductive TurnAttr where
  | xorRelayedAddress (addr : SocketAddr)
  | xorPeerAddress (addr : SocketAddr)
  | xorMappedAddress (addr : SocketAddr)
  | lifetime (secs : UInt32)
  | channelNumber (channel : UInt16)
  | data (payload : Bytes)
  | realm (text : Text)
  | nonce (bytes : Bytes)
  | errorCode (code : UInt16) (reason : Text)
  | requestedTransport (proto : UInt8)
  | username (name : Text)
  | messageIntegrity (hmac : Vector UInt8 20)
  | unknown (attrType : UInt16) (value : Bytes)
  deriving DecidableEq

structure TurnMessage where
  method : UInt16
  class' : UInt8
  transactionId : TransactionId
  attrs : List TurnAttr
  deriving DecidableEq

namespace Turn

def buildHeader (method : UInt16) (class' : UInt8) (tid : TransactionId) (attrLen : Nat) : Bytes :=
  let c1 : UInt16 := ((class' >>> 1) &&& 1).toUInt16
  let c0 : UInt16 := (class' &&& 1).toUInt16
  let mBits := ((method &&& 0xf80) <<< 2) ||| ((method &&& 0x070) <<< 1) ||| (method &&& 0x00f)
  be16 (mBits ||| (c1 <<< 8) ||| (c0 <<< 4)) ++ toBeBytes 2 (min attrLen u16Max) ++ be32 magicCookie ++ tid.toList

def xorAddr (addr : SocketAddr) (tid : TransactionId) : Bytes := encodeXorMappedAddress addr tid

def dxorAddr (value : Bytes) (tid : TransactionId) (attrType : UInt16) : Except IceError SocketAddr :=
  decodeXorMappedAddress value tid attrType

def attrTlv (attr : TurnAttr) (tid : TransactionId) : UInt16 × Bytes :=
  match attr with
  | .xorRelayedAddress addr => (0x0016,xorAddr addr tid)
  | .xorPeerAddress addr => (0x0012,xorAddr addr tid)
  | .xorMappedAddress addr => (0x0020,xorAddr addr tid)
  | .lifetime secs => (0x000d,be32 secs)
  | .channelNumber channel => (0x000c,be16 channel ++ [0,0])
  | .data payload => (0x0013,payload)
  | .realm text => (0x0014,text.asBytes)
  | .nonce bytes => (0x0015,bytes)
  | .errorCode code reason => (0x0009,[0,0,(code / 100).toUInt8,(code % 100).toUInt8] ++ reason.asBytes)
  | .requestedTransport proto => (0x0019,[proto,0,0,0])
  | .username name => (0x0006,name.asBytes)
  | .messageIntegrity hmac => (0x0008,hmac.toList)
  | .unknown attrType value => (attrType,value)

def encodeAttrs (attrs : List TurnAttr) (tid : TransactionId) : Bytes :=
  attrs.flatMap (fun attr => Tlv.item (attrTlv attr tid).1 (attrTlv attr tid).2)

def atLeast (n : Nat) (attrType : UInt16) (value : Bytes) (attr : TurnAttr) : Except IceError TurnAttr :=
  if value.length < n then .error (.stunAttrTruncated attrType) else .ok attr

def decodeOneAttr (suite : StunSuite) (tid : TransactionId) (attrType : UInt16) (value : Bytes) :
    Except IceError TurnAttr :=
  if attrType = 0x0016 then (dxorAddr value tid attrType).map .xorRelayedAddress
  else if attrType = 0x0012 then (dxorAddr value tid attrType).map .xorPeerAddress
  else if attrType = 0x0020 then (dxorAddr value tid attrType).map .xorMappedAddress
  else if attrType = 0x000d then
    atLeast 4 attrType value (.lifetime (UInt32.ofNat (fromBeBytes (value.take 4))))
  else if attrType = 0x000c then atLeast 2 attrType value (.channelNumber (u16At value 0))
  else if attrType = 0x0013 then .ok (.data value)
  else if attrType = 0x0014 then .ok (.realm (fromUtf8Lossy suite value))
  else if attrType = 0x0015 then .ok (.nonce value)
  else if attrType = 0x0009 then
    let class' := (value.getD 2 0).toNat
    let number := (value.getD 3 0).toNat
    atLeast 4 attrType value (.errorCode (UInt16.ofNat (satAdd u16Max (min (class' * 100) u16Max) number))
      (fromUtf8Lossy suite (value.drop 4)))
  else if attrType = 0x0019 then atLeast 1 attrType value (.requestedTransport (value.getD 0 0))
  else if attrType = 0x0006 then
    match Text.fromUtf8 value with
    | none => .error (.stunAttrTruncated attrType)
    | some name => .ok (.username name)
  else if attrType = 0x0008 then atLeast 20 attrType value (.messageIntegrity (vectorAt 20 value 0))
  else .ok (.unknown attrType value)

def decodeAttrs (suite : StunSuite) (attrBytes : Bytes) (tid : TransactionId) : Except IceError (List TurnAttr) :=
  Tlv.decodeFrom (decodeOneAttr suite tid)
    (fun pos => .stunTruncated (pos + 4) (attrBytes.length + stunHeaderLen)) .stunAttrTruncated 0 attrBytes

/-- Unlike its STUN sibling it reports a missing attribute as a mismatch. -/
def findAttr (raw : Bytes) (target : UInt16) : Except IceError Nat :=
  if raw.length < stunHeaderLen then .error (.stunTruncated stunHeaderLen raw.length)
  else
    let total := stunHeaderLen + (u16At raw 2).toNat
    match slice? raw stunHeaderLen total with
    | none => .error (.stunTruncated total raw.length)
    | some attrBytes =>
      (Tlv.findFrom .stunAttrTruncated .integrityMismatch target 0 attrBytes).map (stunHeaderLen + ·)

end Turn

namespace TurnMessage

def decode (suite : StunSuite) (raw : Bytes) : Except IceError TurnMessage :=
  if raw.length < stunHeaderLen then .error (.stunTruncated stunHeaderLen raw.length)
  else
    let typeWord : UInt16 := u16At raw 0
    let msgLen : UInt16 := u16At raw 2
    let cookie := UInt32.ofNat (fromBeBytes [raw.getD 4 0,raw.getD 5 0,raw.getD 6 0,raw.getD 7 0])
    if (typeWord &&& 0xc000) ≠ 0 then .error .invalidMessageTypeBits
    else if msgLen % 4 ≠ 0 then .error (.messageLengthNotAligned msgLen)
    else if cookie ≠ magicCookie then .error (.badMagicCookie cookie)
    else
      let method := ((typeWord >>> (2 : UInt16)) &&& 0xf80) ||| ((typeWord >>> (1 : UInt16)) &&& 0x070) ||| (typeWord &&& 0x00f)
      let c1 := (typeWord >>> (8 : UInt16)) &&& 0x01
      let c0 := (typeWord >>> (4 : UInt16)) &&& 0x01
      let class' := ((c1 <<< (1 : UInt16)) ||| c0).toUInt8
      let transactionId := vectorAt 12 raw 8
      let total := stunHeaderLen + msgLen.toNat
      if raw.length < total then .error (.stunTruncated total raw.length)
      else match Turn.decodeAttrs suite ((raw.drop stunHeaderLen).take msgLen.toNat) transactionId with
        | .error e => .error e
        | .ok attrs => .ok ⟨method,class',transactionId,attrs⟩

def encode (msg : TurnMessage) : Bytes :=
  let attrBody := Turn.encodeAttrs msg.attrs msg.transactionId
  Turn.buildHeader msg.method msg.class' msg.transactionId attrBody.length ++ attrBody

def encodeWithIntegrity (suite : StunSuite) (msg : TurnMessage) (ltKey : Bytes) : Bytes :=
  let attrBody := Turn.encodeAttrs msg.attrs msg.transactionId
  let out := Turn.buildHeader msg.method msg.class' msg.transactionId (attrBody.length + 24) ++ attrBody
  out ++ be16 0x0008 ++ be16 20 ++ (suite.hmacSha1 ltKey out).toList

def verifyIntegrity (suite : StunSuite) (raw ltKey : Bytes) : Except IceError Unit :=
  match Turn.findAttr raw 0x0008 with
  | .error e => .error e
  | .ok miOff =>
    let miEnd := miOff + 24
    let bodyEnd := stunHeaderLen + (u16At raw 2).toNat
    let trailer := (slice? raw miEnd bodyEnd).getD []
    if miEnd < bodyEnd ∧ ¬(trailer.length = 8 ∧ slice? trailer 0 2 = some (be16 0x8028)) then
      .error (.attrOrderingViolation "MESSAGE-INTEGRITY")
    else match slice? raw 0 miOff with
      | none => .error (.stunTruncated miOff raw.length)
      | some covered =>
        let expected := suite.hmacSha1 ltKey (setLength covered (miOff + 24 - stunHeaderLen))
        match slice? raw (miOff + 4) (miOff + 4 + 20) with
        | none => .error .integrityMismatch
        | some stored => if expected.toList = stored then .ok () else .error .integrityMismatch

section Accessors

variable (msg : TurnMessage)

def relayAddress : Option SocketAddr :=
  msg.attrs.findSome? fun
    | .xorRelayedAddress addr => some addr
    | _ => none

def realm : Option Text :=
  msg.attrs.findSome? fun
    | .realm text => some text
    | _ => none

def nonce : Option Bytes :=
  msg.attrs.findSome? fun
    | .nonce bytes => some bytes
    | _ => none

def errorCode : Option UInt16 :=
  msg.attrs.findSome? fun
    | .errorCode code _ => some code
    | _ => none

def lifetime : Option UInt32 :=
  msg.attrs.findSome? fun
    | .lifetime secs => some secs
    | _ => none

def peerAddress : Option SocketAddr :=
  msg.attrs.findSome? fun
    | .xorPeerAddress addr => some addr
    | _ => none

def payload : Option Bytes :=
  msg.attrs.findSome? fun
    | .data payload => some payload
    | _ => none

def isResponse : Bool := msg.class' = 2 || msg.class' = 3

/-- 401 and 438 are challenges and carry no integrity attribute. -/
def isAuthChallenge : Bool := msg.class' = 3 && (msg.errorCode = some 401 || msg.errorCode = some 438)

def isIndication : Bool := msg.class' = 1

end Accessors

end TurnMessage

structure TurnConfig where
  serverAddr : SocketAddr
  username : Text
  password : Text
  lifetimeSecs : UInt32
  deriving DecidableEq

inductive TurnState where
  | unallocated
  | allocating
  | allocatingAuthenticated
  | allocated
  | refreshing
  | expired
  deriving DecidableEq

structure TurnEnv where
  suite : StunSuite
  md5 : Bytes → Bytes
  tid : Nat → TransactionId

def longTermKey (env : TurnEnv) (username realm password : Text) : Bytes :=
  env.md5 (username ++ ':' :: realm ++ ':' :: password).asBytes

/-- A message the transport took, with the key of its integrity attribute if it has one. -/
structure Outgoing where
  message : TurnMessage
  key : Option Bytes
  deriving DecidableEq

/-- `sent` is what the transport took, `drawn` counts the transaction ids generated. -/
structure TurnClient where
  config : TurnConfig
  state : TurnState
  relayAddr : Option SocketAddr
  realm : Option Text
  nonce : Option Bytes
  ltKey : Option Bytes
  expiresAt : Option Int
  pendingTid : Option TransactionId
  authAttempts : Nat
  drawn : Nat
  sent : List Outgoing
  deriving DecidableEq

/-- Four hexadecimal digits behind `0x`. -/
def hexChannel (channel : UInt16) : String :=
  let digits := Nat.toDigits 16 channel.toNat
  "0x" ++ String.ofList (List.replicate (4 - digits.length) '0' ++ digits)

def channelHdr : Nat := 4

namespace TurnClient

/-- A length beyond 16 bits is written as the largest one. -/
def buildChannelData (channel : UInt16) (data : Bytes) : Except IceError Bytes :=
  if ¬(channelMin ≤ channel ∧ channel ≤ channelMax) then .error (.checkFailed ("invalid channel " ++ hexChannel channel))
  else
    let len := data.length
    let pad := (4 - len % 4) % 4
    .ok (be16 channel ++ toBeBytes 2 (min len u16Max) ++ data ++ List.replicate pad 0)

def decodeChannelData (raw : Bytes) : Except IceError (UInt16 × Bytes) :=
  if raw.length < channelHdr then .error (.stunTruncated channelHdr raw.length)
  else
    let channel := u16At raw 0
    let len := (u16At raw 2).toNat
    let end' := channelHdr + len
    if raw.length < end' then .error (.stunTruncated end' raw.length)
    else match slice? raw channelHdr end' with
      | none => .error (.stunTruncated end' raw.length)
      | some data => .ok (channel,data)

def new (config : TurnConfig) : TurnClient := ⟨config,.unallocated,none,none,none,none,none,none,0,0,[]⟩

/-- Hands a message to the transport; `sendTo` is what the transport answers. -/
def transmit (client : TurnClient) (message : TurnMessage) (key : Option Bytes) (sendTo : Except IceError Unit) :
    Except IceError Unit × TurnClient :=
  match sendTo with
  | .error e => (.error e,client)
  | .ok () => (.ok (),{ client with sent := client.sent ++ [⟨message,key⟩] })

section Requests

variable (env : TurnEnv) (client : TurnClient) (sendTo : Except IceError Unit)

def startAllocate : Except IceError Unit × TurnClient :=
  let tid := env.tid client.drawn
  { client with state := .allocating, drawn := client.drawn + 1, pendingTid := some tid }.transmit
    ⟨methodAllocate,0,tid,[.requestedTransport 17,.lifetime client.config.lifetimeSecs]⟩ none sendTo

def sendAuthenticatedAllocate : Except IceError Unit × TurnClient :=
  match client.realm with
  | none => (.error (.checkFailed "TURN realm not set"),client)
  | some realm =>
    match client.nonce with
    | none => (.error (.checkFailed "TURN nonce not set"),client)
    | some nonce =>
      match client.ltKey with
      | none => (.error (.checkFailed "TURN lt_key not set"),client)
      | some ltKey =>
        let tid := env.tid client.drawn
        { client with state := .allocatingAuthenticated, drawn := client.drawn + 1, pendingTid := some tid }.transmit
          ⟨methodAllocate,0,tid,[.requestedTransport 17,.lifetime client.config.lifetimeSecs,
            .username client.config.username,.realm realm,.nonce nonce]⟩ (some ltKey) sendTo

/-- The long-term key, realm and nonce of a signed request other than Allocate. -/
def credentials : Except IceError (Bytes × Text × Bytes) :=
  match client.ltKey with
  | none => .error (.checkFailed "TURN lt_key not set")
  | some ltKey =>
    match client.realm with
    | none => .error (.checkFailed "TURN realm not set")
    | some realm =>
      match client.nonce with
      | none => .error (.checkFailed "TURN nonce not set")
      | some nonce => .ok (ltKey,realm,nonce)

def sendRefresh : Except IceError Unit × TurnClient :=
  if client.state ≠ .allocated then (.error (.checkFailed "TURN Refresh requires Allocated state"),client)
  else match client.credentials with
    | .error e => (.error e,client)
    | .ok (ltKey,realm,nonce) =>
      let tid := env.tid client.drawn
      { client with state := .refreshing, drawn := client.drawn + 1, pendingTid := some tid }.transmit
        ⟨methodRefresh,0,tid,[.lifetime client.config.lifetimeSecs,.username client.config.username,.realm realm,
          .nonce nonce]⟩ (some ltKey) sendTo

/-- A signed request about a peer; the client does not wait for its response. -/
def sendPeerRequest (method : UInt16) (attrs : List TurnAttr) : Except IceError Unit × TurnClient :=
  match client.credentials with
  | .error e => (.error e,client)
  | .ok (ltKey,realm,nonce) =>
    let tid := env.tid client.drawn
    { client with drawn := client.drawn + 1 }.transmit
      ⟨method,0,tid,attrs ++ [TurnAttr.username client.config.username,.realm realm,.nonce nonce]⟩ (some ltKey) sendTo

def createPermission (peer : SocketAddr) : Except IceError Unit × TurnClient :=
  if client.state ≠ .allocated then (.error (.checkFailed "TURN CreatePermission requires Allocated state"),client)
  else client.sendPeerRequest env sendTo methodCreatePermission [.xorPeerAddress peer]

def channelBind (channel : UInt16) (peer : SocketAddr) : Except IceError Unit × TurnClient :=
  if client.state ≠ .allocated then (.error (.checkFailed "TURN ChannelBind requires Allocated state"),client)
  else if ¬(channelMin ≤ channel ∧ channel ≤ channelMax) then
    (.error (.checkFailed ("invalid TURN channel " ++ hexChannel channel ++ ": must be " ++ hexChannel channelMin ++ "–" ++
      hexChannel channelMax)),client)
  else client.sendPeerRequest env sendTo methodChannelBind [.channelNumber channel,.xorPeerAddress peer]

def sendIndication (peer : SocketAddr) (payload : Bytes) : Except IceError Unit × TurnClient :=
  if client.state ≠ .allocated then (.error (.checkFailed "TURN Send indication requires Allocated state"),client)
  else
    let tid := env.tid client.drawn
    { client with drawn := client.drawn + 1 }.transmit ⟨methodSend,1,tid,[.xorPeerAddress peer,.data payload]⟩ none sendTo

end Requests

/-- A response to another request than the pending one; without a pending one none is. -/
def isStale (client : TurnClient) (msg : TurnMessage) : Bool :=
  msg.isResponse && match client.pendingTid with
    | some expected => msg.transactionId ≠ expected
    | none => false

/-- A message that has to be signed and is not, once there is a key to check with. -/
def isForged (env : TurnEnv) (client : TurnClient) (raw : Bytes) (msg : TurnMessage) : Bool :=
  !msg.isAuthChallenge && !msg.isIndication && match client.ltKey with
    | some key => TurnMessage.verifyIntegrity env.suite raw key ≠ .ok ()
    | none => false

section Incoming

variable (env : TurnEnv) (client : TurnClient) (msg : TurnMessage) (now : Int) (sendTo : Except IceError Unit)

def extendLifetime : TurnClient :=
  { client with
    expiresAt := some (satAddI64 now (msg.lifetime.getD client.config.lifetimeSecs).toNat)
    state := .allocated }

def onAllocateSuccess : TurnClient :=
  extendLifetime { client with relayAddr := msg.relayAddress.or client.relayAddr } msg now

/-- What a 401 teaches: its realm and nonce, and the key once both are known. -/
def learnChallenge : TurnClient :=
  let realm := msg.realm.or client.realm
  let nonce := msg.nonce.or client.nonce
  let ltKey := match realm, nonce with
    | some realm, some _ => some (longTermKey env client.config.username realm client.config.password)
    | _, _ => client.ltKey
  { client with authAttempts := satAdd 255 client.authAttempts 1, realm := realm, nonce := nonce, ltKey := ltKey }

def learnNonce : TurnClient :=
  { client with authAttempts := satAdd 255 client.authAttempts 1, nonce := msg.nonce.or client.nonce }

def onAllocateError : Except IceError (Option (SocketAddr × Bytes)) × TurnClient :=
  let code := msg.errorCode.getD 0
  if (code = 401 ∨ code = 438) ∧ client.authAttempts ≥ 1 then
    (.error (.checkFailed "TURN auth failed: too many retries"),{ client with state := .expired })
  else if code = 401 then
    let (sent,client) := (client.learnChallenge env msg).sendAuthenticatedAllocate env sendTo
    (sent.map (fun _ => none),client)
  else if code = 438 then
    let (sent,client) := (client.learnNonce msg).sendAuthenticatedAllocate env sendTo
    (sent.map (fun _ => none),client)
  else (.error (.checkFailed ("TURN Allocate error " ++ toString code.toNat)),{ client with state := .expired })

def dispatch : Except IceError (Option (SocketAddr × Bytes)) × TurnClient :=
  if msg.method = methodAllocate ∧ msg.class' = 2 then (.ok none,client.onAllocateSuccess msg now)
  else if msg.method = methodAllocate ∧ msg.class' = 3 then client.onAllocateError env msg sendTo
  else if msg.method = methodRefresh ∧ msg.class' = 2 then (.ok none,client.extendLifetime msg now)
  else if msg.method = methodRefresh ∧ msg.class' = 3 then
    (.error (.checkFailed "TURN Refresh rejected"),{ client with state := .expired })
  else if msg.method = methodData ∧ msg.class' = 1 then
    match msg.peerAddress, msg.payload with
    | some peer, some payload => (.ok (some (peer,payload)),client)
    | _, _ => (.ok none,client)
  else (.ok none,client)

def handleIncoming (raw : Bytes) : Except IceError (Option (SocketAddr × Bytes)) × TurnClient :=
  match TurnMessage.decode env.suite raw with
  | .error _ => (.ok none,client)
  | .ok msg =>
    if client.isStale msg then (.ok none,client)
    else if client.isForged env raw msg then (.ok none,client)
    else client.dispatch env msg now sendTo

end Incoming

def markExpired (client : TurnClient) : TurnClient := { client with state := .expired, relayAddr := none }

end TurnClient

end Streamhaul
