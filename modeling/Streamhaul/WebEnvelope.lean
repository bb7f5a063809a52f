import Streamhaul.Chunks
import Streamhaul.JsString
import Streamhaul.SignalingEnvelope
import Streamhaul.Utf8Decoder

/-! The signaling envelope in the browser: its encoder and decoder next to those of the server. -/
namespace Streamhaul

/-- A kind is any number, a session id any byte string. -/
structure WebEnvelope where
  kind : Nat
  sessionId : Bytes
  fromFp : JsString
  toFp : JsString
  payload : Bytes
  deriving DecidableEq

/-- A thrown `Error` with its message, or the `TypeError` of the text decoder. -/
inductive Thrown where
  | error (message : JsString)
  | typeError
  deriving DecidableEq

namespace WebEnvelope

def sessionIdOffset : Nat := 1

def hexUnit (u : UInt16) : Bool := (0x30 ≤ u && u ≤ 0x39) || (0x61 ≤ u && u ≤ 0x66)

/-- The regular expression `^[0-9a-f]{64}$`. -/
def fpRe (s : JsString) : Bool := s.length = 64 && s.all hexUnit

def fpMessage (field : String) (fp : JsString) : JsString :=
  JsString.ofText ("encodeEnvelope: ".toList ++ field.toList ++ " must be 64 lowercase hex chars, got \"".toList) ++
    fp.take 80 ++ JsString.ofText ['"']

def encodeEnvelope (env : WebEnvelope) : Except Thrown Bytes :=
  if ¬fpRe env.fromFp then .error (.error (fpMessage "fromFp" env.fromFp))
  else if ¬fpRe env.toFp then .error (.error (fpMessage "toFp" env.toFp))
  else if env.payload.length > maxPayloadLen then
    .error (.error (JsString.ofText ("encodeEnvelope: payload too large (".toList ++ decimal env.payload.length ++
      " > ".toList ++ decimal maxPayloadLen ++ [')'])))
  else
    let total := envelopeHeaderLen + env.payload.length
    let buf : Bytes := List.replicate total 0
    let buf := Chunks.writeAt buf 0 [UInt8.ofNat env.kind]
    let buf := Chunks.writeAt buf sessionIdOffset (env.sessionId.take 16)
    let buf := Chunks.writeAt buf fromFpOffset (JsString.textEncode env.fromFp)
    let buf := Chunks.writeAt buf toFpOffset (JsString.textEncode env.toFp)
    let buf := Chunks.writeAt buf payloadLenOffset (toBeBytes 4 env.payload.length)
    .ok (Chunks.writeAt buf envelopeHeaderLen env.payload)

/-- The text decoder in fatal mode on the 64 bytes from an offset on. -/
def decodeText (buf : Bytes) (offset : Nat) : Except Thrown JsString :=
  match Utf8.textDecode ((buf.drop offset).take fpLen) with
  | none => .error .typeError
  | some text => .ok (JsString.ofText text)

/-- The kind is returned as it is. -/
def decodeEnvelope (buf : Bytes) : Except Thrown WebEnvelope :=
  if buf.length < envelopeHeaderLen then
    .error (.error (JsString.ofText ("decodeEnvelope: buffer too short (".toList ++ decimal buf.length ++ " < ".toList ++
      decimal envelopeHeaderLen ++ [')'])))
  else
    let kind := (buf.getD 0 0).toNat
    let sessionId := (buf.drop sessionIdOffset).take 16
    match decodeText buf fromFpOffset with
    | .error e => .error e
    | .ok fromFp =>
      match decodeText buf toFpOffset with
      | .error e => .error e
      | .ok toFp =>
        let payloadLen := fromBeBytes ((buf.drop payloadLenOffset).take 4)
        if payloadLen > maxPayloadLen then
          .error (.error (JsString.ofText ("decodeEnvelope: payload_len too large (".toList ++ decimal payloadLen ++
            " > ".toList ++ decimal maxPayloadLen ++ [')'])))
        else
          let expectedTotal := envelopeHeaderLen + payloadLen
          if buf.length < expectedTotal then
            .error (.error (JsString.ofText ("decodeEnvelope: buffer too short for declared payload (need ".toList ++
              decimal expectedTotal ++ ", have ".toList ++ decimal buf.length ++ [')'])))
          else .ok ⟨kind,sessionId,fromFp,toFp,(buf.drop envelopeHeaderLen).take payloadLen⟩

end WebEnvelope

def SignalingEnvelope.toWeb (env : SignalingEnvelope) : WebEnvelope :=
  ⟨env.kind.toU8.toNat,env.sessionId.toList,JsString.ofText env.fromFp,JsString.ofText env.toFp,env.payload⟩

namespace WebEnvelope

/-! Both sides take the same fingerprints. -/

def hexChar (c : Char) : Bool := (0x30 ≤ c.toNat && c.toNat ≤ 0x39) || (0x61 ≤ c.toNat && c.toNat ≤ 0x66)

theorem all_hexUnit_ofChar (c : Char) : (JsString.ofChar c).all hexUnit = hexChar c := by
  have valid := JsString.toNat_valid c
  rw [Bool.eq_iff_iff]
  by_cases small : c.toNat < 0x10000
  · simp only [JsString.ofChar,if_pos small,List.all_cons,List.all_nil,Bool.and_true,hexUnit,hexChar,UInt16.le_iff_toNat_le,
      JsString.toNat_unit small]
    simp
  · simp only [JsString.ofChar,if_neg small,List.all_cons,List.all_nil,Bool.and_true,hexUnit,hexChar,UInt16.le_iff_toNat_le,
      JsString.toNat_unit (show 0xD800 + (c.toNat - 0x10000) / 0x400 < 0x10000 by omega)]
    simp
    omega

theorem lowerHex_ofNat {n : Nat} (small : n < 256) :
    lowerHex (UInt8.ofNat n) = ((0x30 ≤ n && n ≤ 0x39) || (0x61 ≤ n && n ≤ 0x66)) := by
  simp only [lowerHex,UInt8.le_iff_toNat_le,Utf8.toNat_byte small]
  rfl

theorem all_lowerHex_utf8 (c : Char) : (String.utf8EncodeChar c).all lowerHex = hexChar c := by
  have value : c.val.toNat = c.toNat := rfl
  simp only [String.utf8EncodeChar,value,hexChar]
  generalize c.toNat = n
  split_ifs with one two three
  · rw [List.all_cons,List.all_nil,Bool.and_true,lowerHex_ofNat (by omega)]
  · rw [List.all_cons,lowerHex_ofNat (by omega),Bool.eq_iff_iff]
    simp
    omega
  · rw [List.all_cons,lowerHex_ofNat (by omega),Bool.eq_iff_iff]
    simp
    omega
  · rw [List.all_cons,lowerHex_ofNat (by omega),Bool.eq_iff_iff]
    simp
    omega

theorem all_lowerHex_asBytes (s : Text) : s.asBytes.all lowerHex = s.all hexChar := by
  rw [Text.asBytes,List.all_flatMap]
  congr 1
  exact funext all_lowerHex_utf8

theorem all_hexUnit_ofText (s : Text) : (JsString.ofText s).all hexUnit = s.all hexChar := by
  rw [JsString.ofText,List.all_flatMap]
  congr 1
  exact funext all_hexUnit_ofChar

theorem length_hex {s : Text} (hex : s.all hexChar = true) : s.len = s.length ∧ (JsString.ofText s).length = s.length := by
  induction s with
  | nil => exact ⟨rfl,rfl⟩
  | cons c rest ih =>
    rw [List.all_cons,Bool.and_eq_true] at hex
    obtain ⟨first,later⟩ := ih hex.2
    have small : c.toNat ≤ 0x66 := by
      have here := hex.1
      simp only [hexChar,Bool.or_eq_true,Bool.and_eq_true,decide_eq_true_eq] at here
      omega
    have one : c.utf8Size = 1 := Text.utf8Size_eq_one (small.trans (by decide))
    have unit : (JsString.ofChar c).length = 1 := by
      rw [JsString.ofChar,if_pos (by omega)]
      rfl
    constructor
    · simp only [Text.len,List.map_cons,List.sum_cons,List.length_cons] at first ⊢
      omega
    · simp only [JsString.ofText,List.flatMap_cons,List.length_append,List.length_cons] at later ⊢
      omega

theorem fpRe_iff (fp : Text) : fpRe (JsString.ofText fp) = true ↔ validateFp fp = .ok () := by
  have server : validateFp fp = .ok () ↔ fp.len = 64 ∧ fp.all hexChar = true := by
    rw [validateFp,all_lowerHex_asBytes]
    split
    · next refused => exact iff_of_false nofun (fun valid => refused.elim (· valid.1) (· valid.2))
    · next passed => exact iff_of_true rfl ⟨not_not.mp (not_or.mp passed).1,not_not.mp (not_or.mp passed).2⟩
  rw [server,fpRe,Bool.and_eq_true,all_hexUnit_ofText,decide_eq_true_eq]
  constructor
  · rintro ⟨size,hex⟩
    exact ⟨by rw [(length_hex hex).1,← (length_hex hex).2,size],hex⟩
  · rintro ⟨size,hex⟩
    exact ⟨by rw [(length_hex hex).2,← (length_hex hex).1,size],hex⟩

/-! The encoder fills its buffer from front to back. -/

variable {env : SignalingEnvelope}

theorem encodeEnvelope_toWeb (valid : env.Valid) :
    encodeEnvelope env.toWeb = .ok (env.header ++ env.payload) := by
  have sender : fpRe (JsString.ofText env.fromFp) = true := (fpRe_iff _).mpr valid.fromFp
  have recipient : fpRe (JsString.ofText env.toFp) = true := (fpRe_iff _).mpr valid.toFp
  have fits : ¬env.payload.length > maxPayloadLen := Nat.not_lt.mpr valid.payload
  have senderLen := SignalingEnvelope.length_of_validateFp valid.fromFp
  have recipientLen := SignalingEnvelope.length_of_validateFp valid.toFp
  have kind : UInt8.ofNat env.kind.toU8.toNat = env.kind.toU8 := UInt8.ofNat_toNat
  have session : env.sessionId.toList.take 16 = env.sessionId.toList := List.take_of_length_le (by simp)
  let parts := [[env.kind.toU8],env.sessionId.toList,env.fromFp.asBytes,env.toFp.asBytes,
    toBeBytes 4 env.payload.length,env.payload]
  have size : (List.replicate (envelopeHeaderLen + env.payload.length) (0 : UInt8)).length = parts.flatten.length := by
    simp [parts,senderLen,recipientLen,envelopeHeaderLen,fpLen]
    omega
  have filled := Chunks.writeAll_full size
  simp only [parts,Chunks.writeAll,List.length_singleton,Vector.length_toList,senderLen,recipientLen,length_toBeBytes,
    fpLen,Nat.reduceAdd,Nat.zero_add] at filled
  simp only [encodeEnvelope,SignalingEnvelope.toWeb,sender,recipient,fits,not_true_eq_false,if_false,
    JsString.textEncode_ofText,kind,session,sessionIdOffset,fromFpOffset,toFpOffset,payloadLenOffset]
  refine congrArg Except.ok (Eq.trans filled ?_)
  simp [SignalingEnvelope.header]

/-! What the server decodes, the browser decodes. -/

theorem decodeText_of_decodeFp {buf : Bytes} {offset : Nat} {fp : Text}
    (decoded : SignalingEnvelope.decodeFp buf offset = .ok fp) : decodeText buf offset = .ok (JsString.ofText fp) := by
  obtain ⟨valid,field⟩ := SignalingEnvelope.decodeFp_ok decoded
  have kept : Utf8.stripBom fp = fp := by
    cases fp with
    | nil => rfl
    | cons c rest =>
      have hex := (fpRe_iff _).mpr valid
      rw [fpRe,Bool.and_eq_true,all_hexUnit_ofText,List.all_cons,Bool.and_eq_true] at hex
      rw [Utf8.stripBom,if_neg]
      intro bom
      simp [hexChar,bom] at hex
  simp only [decodeText,field,Utf8.textDecode_eq,Text.fromUtf8_asBytes,Option.map_some,kept]

theorem decodeEnvelope_framed {buf : Bytes} (valid : env.Valid)
    (framed : SignalingEnvelope.Framed env buf) : decodeEnvelope buf = .ok env.toWeb := by
  have total := framed.long
  have header : 1 + 16 ≤ buf.length := by
    unfold envelopeHeaderLen at total
    omega
  have long : ¬buf.length < envelopeHeaderLen := by omega
  have whole : ¬buf.length < envelopeHeaderLen + env.payload.length := by omega
  have session : (buf.drop sessionIdOffset).take 16 = env.sessionId.toList := by
    rw [← framed.session]
    exact (toList_vectorAt header).symm
  simp only [decodeEnvelope,long,if_false,framed.kind,session,decodeText_of_decodeFp framed.sender,
    decodeText_of_decodeFp framed.recipient,framed.length,framed.body,whole,gt_iff_lt,Nat.not_lt.mpr valid.payload]
  rfl

theorem encodeEnvelope_refused (invalid : ¬env.Valid) :
    ∃ thrown, encodeEnvelope env.toWeb = .error thrown := by
  cases encoded : encodeEnvelope env.toWeb with
  | error thrown => exact ⟨thrown,rfl⟩
  | ok bytes =>
    refine absurd ?_ invalid
    unfold encodeEnvelope at encoded
    split_ifs at encoded with sender recipient large
    exact ⟨Nat.not_lt.mp large,(fpRe_iff _).mp sender,(fpRe_iff _).mp recipient⟩

/-- Server and browser encode alike, what the server decodes the browser decodes to the same
fields, and the browser refuses to encode what the server refuses. -/
theorem envelopes_agree :
    (∀ (env : SignalingEnvelope) bytes, env.encode = .ok bytes →
      SignalingEnvelope.decode bytes = .ok env ∧ encodeEnvelope env.toWeb = .ok bytes) ∧
    (∀ buf env, SignalingEnvelope.decode buf = .ok env →
      (∃ bytes, env.encode = .ok bytes ∧ bytes <+: buf) ∧ decodeEnvelope buf = .ok env.toWeb) ∧
    (∀ (env : SignalingEnvelope) err, env.encode = .error err → ∃ thrown, encodeEnvelope env.toWeb = .error thrown) := by
  refine ⟨?_,?_,?_⟩
  · intro env bytes encoded
    have decoded := SignalingEnvelope.decode_encode encoded []
    rw [List.append_nil] at decoded
    obtain ⟨valid,rfl⟩ := SignalingEnvelope.encode_ok_iff.mp encoded
    exact ⟨decoded,encodeEnvelope_toWeb valid⟩
  · intro buf env decoded
    obtain ⟨valid,tail,rfl⟩ := SignalingEnvelope.decode_ok_iff.mp decoded
    refine ⟨⟨_,SignalingEnvelope.encode_eq valid,tail,List.append_assoc _ _ _⟩,?_⟩
    exact decodeEnvelope_framed valid (SignalingEnvelope.framed valid tail)
  · intro env err refused
    apply encodeEnvelope_refused
    intro valid
    rw [SignalingEnvelope.encode_eq valid] at refused
    cases refused

def hello : SignalingEnvelope :=
  ⟨.hello,Vector.replicate 16 1,List.replicate 64 'a',List.replicate 64 '0',[1,2,3]⟩

/-- A greeting is encoded on both sides to the same bytes. -/
theorem hello_agrees : ∃ bytes, hello.encode = .ok bytes ∧ encodeEnvelope hello.toWeb = .ok bytes := by
  have encoded : hello.encode = .ok (hello.header ++ hello.payload) :=
    SignalingEnvelope.encode_eq ⟨by decide,by decide +kernel,by decide +kernel⟩
  exact ⟨_,encoded,(envelopes_agree.1 hello _ encoded).2⟩

end WebEnvelope

end Streamhaul
