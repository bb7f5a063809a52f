import Streamhaul.Bytes
import Streamhaul.Text

/-! The DTLS fingerprint of a session description and its comparison with a pin. The
scanner stops at the first `sha-256` fingerprint line, whatever the lines after it say. -/
namespace Streamhaul

abbrev JsError := String

def sha256FpLen : Nat := 32

def maxSdpBytes : Nat := 65536

def decodeHexGroup (token : Text) : Except JsError UInt8 :=
  token.foldlM (fun byte ch =>
    match Text.toDigit16 ch with
    | some n => .ok ((byte <<< 4) ||| UInt8.ofNat (n &&& 0xf))
    | none => .error "fingerprint contains a non-hex character") 0

def decodeGroups : List Text → Bytes → Except JsError Bytes
  | [], out =>
    if out.length ≠ sha256FpLen then .error "fingerprint did not decode to exactly 32 bytes"
    else .ok out
  | token :: rest, out =>
    if token.len ≠ 2 then .error "each fingerprint hex group must be exactly two hex digits"
    else match decodeHexGroup token with
      | .error e => .error e
      | .ok byte =>
        if out.length = sha256FpLen then .error "fingerprint has more than 32 bytes"
        else decodeGroups rest (out ++ [byte])

def decodeColonHex (value : Text) : Except JsError Bytes := decodeGroups (value.split ':') []

/-- The value of a `sha-256` fingerprint line; every other line is skipped. -/
def fingerprintValue (rawLine : Text) : Option Text :=
  let line := (rawLine.trimEndMatches '\r').trim
  match line.stripPrefix "a=fingerprint:".toList with
  | none => none
  | some rest =>
    match rest.splitWhitespace2 with
    | (_,none) => none
    | (alg,some v) => if alg.eqIgnoreAsciiCase "sha-256".toList then some v.trim else none

def scanLines : List Text → Except JsError Bytes
  | [] => .error "no a=fingerprint:sha-256 attribute found in SDP"
  | rawLine :: rest =>
    match fingerprintValue rawLine with
    | none => scanLines rest
    | some value => decodeColonHex value

def parseSdpFingerprintInner (sdp : Text) : Except JsError Bytes :=
  if sdp.len > maxSdpBytes then .error "SDP exceeds maximum allowed length"
  else scanLines (sdp.split '\n')

/-- The constant-time comparison: differences are collected over all 32 positions. -/
def fingerprintDiff (parsed pin : Bytes) : Except JsError UInt8 :=
  (List.range sha256FpLen).foldlM (fun diff i =>
    match parsed[i]?, pin[i]? with
    | some a, some b => .ok (diff ||| (a ^^^ b))
    | _, _ => .error "DTLS fingerprint verification failed") 0

def verifySdpFingerprintPin (sdp : Text) (pin : Bytes) : Except JsError Unit :=
  if pin.length ≠ sha256FpLen then .error "pin must be exactly 32 bytes"
  else match parseSdpFingerprintInner sdp with
    | .error _ => .error "DTLS fingerprint verification failed"
    | .ok parsed =>
      match fingerprintDiff parsed pin with
      | .error e => .error e
      | .ok diff => if diff = 0 then .ok () else .error "DTLS fingerprint verification failed"

/-- A group of a well-formed fingerprint and its byte. -/
def HexGroup (token : Text) (byte : UInt8) : Prop :=
  token.len = 2 ∧ decodeHexGroup token = .ok byte

theorem decodeGroups_ok_iff {tokens : List Text} {out bytes : Bytes} (room : out.length ≤ sha256FpLen) :
    decodeGroups tokens out = .ok bytes ↔
      bytes.length = sha256FpLen ∧ ∃ tail, bytes = out ++ tail ∧ List.Forall₂ HexGroup tokens tail := by
  induction tokens generalizing out with
  | nil =>
    simp only [decodeGroups,List.forall₂_nil_left_iff]
    split <;> aesop
  | cons token rest ih =>
    simp only [decodeGroups,List.forall₂_cons_left_iff]
    by_cases width : token.len = 2
    swap
    · simp [width,HexGroup]
    cases byte : decodeHexGroup token with
    | error e => simp [width,byte,HexGroup]
    | ok b =>
      by_cases full : out.length = sha256FpLen
      · simp only [width,full,if_true,ne_eq,not_true_eq_false,if_false,reduceCtorEq,false_iff]
        rintro ⟨length,_,rfl,b',tail,_,_,rfl⟩
        simp [full] at length
      · simp only [width,full,if_false,ne_eq,not_true_eq_false]
        rw [ih (by simp; omega)]
        apply and_congr_right
        intro _
        constructor
        · rintro ⟨tail,rfl,groups⟩
          exact ⟨b :: tail,by simp,b,tail,⟨width,byte⟩,groups,rfl⟩
        · rintro ⟨_,rfl,b',tail,⟨_,decoded⟩,groups,rfl⟩
          cases byte.symm.trans decoded
          exact ⟨tail,by simp,groups⟩

variable {bytes : Bytes} {sdp : Text}

theorem decodeColonHex_ok_iff {value : Text} :
    decodeColonHex value = .ok bytes ↔
      bytes.length = sha256FpLen ∧ List.Forall₂ HexGroup (value.split ':') bytes := by
  simp [decodeColonHex,decodeGroups_ok_iff]

def lineFingerprint (rawLine : Text) : Option (Except JsError Bytes) :=
  (fingerprintValue rawLine).map decodeColonHex

def firstFingerprint (sdp : Text) : Option (Except JsError Bytes) :=
  (sdp.split '\n').findSome? lineFingerprint

theorem scanLines_ok_iff {lines : List Text} :
    scanLines lines = .ok bytes ↔ lines.findSome? lineFingerprint = some (.ok bytes) := by
  induction lines with
  | nil => simp [scanLines]
  | cons rawLine rest ih =>
    cases value : fingerprintValue rawLine with
    | none => simp [scanLines,lineFingerprint,value,ih]
    | some v => simp [scanLines,lineFingerprint,value]

theorem parseSdpFingerprintInner_ok_iff :
    parseSdpFingerprintInner sdp = .ok bytes ↔
      sdp.len ≤ maxSdpBytes ∧ firstFingerprint sdp = some (.ok bytes) := by
  unfold parseSdpFingerprintInner
  split
  · next long => simp; omega
  · next short => rw [scanLines_ok_iff]; simp [firstFingerprint]; omega

theorem parseSdpFingerprintInner_length
    (parsed : parseSdpFingerprintInner sdp = .ok bytes) : bytes.length = sha256FpLen := by
  obtain ⟨_,first⟩ := parseSdpFingerprintInner_ok_iff.mp parsed
  obtain ⟨_,rawLine,_,_,carried,_⟩ := List.findSome?_eq_some_iff.mp first
  obtain ⟨value,_,decoded⟩ := Option.map_eq_some_iff.mp carried
  exact (decodeColonHex_ok_iff.mp decoded).1

theorem foldlM_diff_zero_iff (parsed pin : Bytes) (positions : List Nat) (diff : UInt8) :
    positions.foldlM (fun diff i =>
      match parsed[i]?, pin[i]? with
      | some a, some b => Except.ok (diff ||| (a ^^^ b))
      | _, _ => .error "DTLS fingerprint verification failed") diff = .ok 0 ↔
      diff = 0 ∧ ∀ i ∈ positions, ∃ a, parsed[i]? = some a ∧ pin[i]? = some a := by
  induction positions generalizing diff with
  | nil => simp [pure,Except.pure]
  | cons i rest ih =>
    rw [List.foldlM_cons]
    cases left : parsed[i]? with
    | none => simp [left,bind,Except.bind]
    | some a =>
      cases right : pin[i]? with
      | none => simp [left,right,bind,Except.bind]
      | some b =>
        simp only [bind,Except.bind,ih,UInt8.or_eq_zero_iff,UInt8.xor_eq_zero_iff,List.mem_cons,
          forall_eq_or_imp,left,right,Option.some.injEq,exists_eq_left',and_assoc]
        tauto

theorem fingerprintDiff_zero_iff {parsed pin : Bytes} (left : parsed.length = sha256FpLen)
    (right : pin.length = sha256FpLen) : fingerprintDiff parsed pin = .ok 0 ↔ parsed = pin := by
  rw [fingerprintDiff,foldlM_diff_zero_iff]
  constructor
  · rintro ⟨-,agree⟩
    apply List.ext_getElem?
    intro i
    by_cases inside : i < sha256FpLen
    · obtain ⟨a,here,there⟩ := agree i (List.mem_range.mpr inside)
      rw [here,there]
    · rw [List.getElem?_eq_none (by omega),List.getElem?_eq_none (by omega)]
  · rintro rfl
    refine ⟨rfl,fun i member => ?_⟩
    have inside : i < parsed.length := by rw [left]; exact List.mem_range.mp member
    exact ⟨parsed[i],by simp [inside],by simp [inside]⟩

theorem verifySdpFingerprintPin_ok_iff {pin : Bytes} :
    verifySdpFingerprintPin sdp pin = .ok () ↔ pin.length = sha256FpLen ∧
      sdp.len ≤ maxSdpBytes ∧ firstFingerprint sdp = some (.ok pin) := by
  rw [← parseSdpFingerprintInner_ok_iff]
  unfold verifySdpFingerprintPin
  by_cases width : pin.length = sha256FpLen
  swap
  · simp [width]
  cases parsed : parseSdpFingerprintInner sdp with
  | error e => simp [width]
  | ok bytes =>
    have same := fingerprintDiff_zero_iff (parseSdpFingerprintInner_length parsed) width
    simp only [width,ne_eq,not_true_eq_false,if_false,true_and,Except.ok.injEq]
    rw [← same]
    cases fingerprintDiff bytes pin with
    | error e => simp
    | ok diff => by_cases zero : diff = 0 <;> simp [zero]

/-- The attribute lines of a description: lines end in LF or CRLF. -/
def attributeLines (sdp : Text) : List Text :=
  (sdp.split '\n').filter (fun rawLine =>
    let line := if rawLine.getLast? = some '\r' then rawLine.dropLast else rawLine
    "a=fingerprint:".toList.isPrefixOf line)

/-- Whichever fingerprint line a WebRTC stack enforces, it is the pin. -/
def FullyPinned (pin : Bytes) (sdp : Text) : Prop :=
  ∀ rawLine ∈ attributeLines sdp, lineFingerprint rawLine = some (.ok pin)

/-- Every fingerprint line agrees with the one the scanner stops at. -/
def Consistent (sdp : Text) : Prop :=
  ∀ rawLine ∈ attributeLines sdp, lineFingerprint rawLine = firstFingerprint sdp

theorem fullyPinned_iff_consistent {pin : Bytes}
    (passed : verifySdpFingerprintPin sdp pin = .ok ()) : FullyPinned pin sdp ↔ Consistent sdp := by
  obtain ⟨_,_,first⟩ := verifySdpFingerprintPin_ok_iff.mp passed
  rw [FullyPinned,Consistent,first]

end Streamhaul
