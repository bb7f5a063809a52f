import Streamhaul.CryptoPrimitives
import Streamhaul.Text

/-! The host's side of an offer: the DTLS fingerprint is read from the session description, or comes from
the identity handshake, and is pinned before the transport exists. The reader is compared with the
documented form of a fingerprint line. -/
namespace Streamhaul

structure Fingerprint where
  hashFunc : String
  bytes : Bytes
  deriving DecidableEq

inductive SdpBridgeError where
  | sdpTooLarge (actual max : Nat)
  | noFingerprint
  | fingerprintParseError (reason : String)
  | sdpParseError (reason : Text)
  | offerRejected (reason : Text)
  | invalidPin (reason : String)
  deriving DecidableEq

namespace SdpBridge

def maxSdpBytes : Nat := 64 * 1024
def maxSdpLines : Nat := 10000
def maxSdpLineLen : Nat := 200

def fingerprintStart : Text := "a=fingerprint:sha-256 ".toList

def decodeFingerprintGroups : List Text → Bytes → Except SdpBridgeError Bytes
  | [], bytes => .ok bytes
  | group :: rest, bytes =>
    if group.len ≠ 2 then .error (.fingerprintParseError "each hex group must be exactly 2 characters")
    else match group.u8FromStrRadix16 with
      | none => .error (.fingerprintParseError "fingerprint hex group is not valid hexadecimal")
      | some byte => decodeFingerprintGroups rest (bytes ++ [byte])

def decodeFingerprintHex (hexPart : Text) : Except SdpBridgeError Fingerprint :=
  let groups := hexPart.split ':'
  if groups.isEmpty then .error (.fingerprintParseError "fingerprint hex part is empty")
  else match decodeFingerprintGroups groups [] with
    | .error e => .error e
    | .ok bytes =>
      if bytes.length ≠ 32 then .error (.fingerprintParseError "SHA-256 fingerprint must be exactly 32 bytes")
      else .ok ⟨"sha-256",bytes⟩

def scanSdpLines : Nat → List Text → Except SdpBridgeError Fingerprint
  | _, [] => .error .noFingerprint
  | i, line :: rest =>
    if i ≥ maxSdpLines then .error .noFingerprint
    else if line.len > maxSdpLineLen then scanSdpLines (i + 1) rest
    else match line.stripPrefix fingerprintStart with
      | some hexPart => decodeFingerprintHex hexPart
      | none =>
        match line.toAsciiLowercase.stripPrefix fingerprintStart with
        | some hexPart => decodeFingerprintHex hexPart
        | none => scanSdpLines (i + 1) rest

def parseSdpFingerprint (sdp : Text) : Except SdpBridgeError Fingerprint := scanSdpLines 0 sdp.lines

/-- What the engine does with an offer: its parser, its answer, and its own fingerprint. -/
structure Rtc (Offer : Type) where
  fromSdpString : Text → Except Text Offer
  acceptOffer : Offer → Except Text Text
  localDtlsFingerprint : Fingerprint

/-- The answer, and the fingerprint that the transport is pinned to. -/
structure SdpBridgeResult where
  answerSdp : Text
  localDtlsFingerprint : Fingerprint
  pinnedDtlsFingerprint : Fingerprint

section Builder

variable {Offer : Type} (rtc : Rtc Offer)

def acceptOfferInner (offerSdp : Text) (remoteFp : Fingerprint) : Except SdpBridgeError SdpBridgeResult :=
  if offerSdp.len > maxSdpBytes then .error (.sdpTooLarge offerSdp.len maxSdpBytes)
  else match rtc.fromSdpString offerSdp with
    | .error e => .error (.sdpParseError e)
    | .ok offer =>
      match rtc.acceptOffer offer with
      | .error e => .error (.offerRejected e)
      | .ok answer => .ok ⟨answer,rtc.localDtlsFingerprint,remoteFp⟩

def acceptBrowserOffer (offerSdp : Text) : Except SdpBridgeError SdpBridgeResult :=
  if offerSdp.len > maxSdpBytes then .error (.sdpTooLarge offerSdp.len maxSdpBytes)
  else match parseSdpFingerprint offerSdp with
    | .error e => .error e
    | .ok remoteFp => acceptOfferInner rtc offerSdp remoteFp

def acceptBrowserOfferWithPin (offerSdp : Text) (pinnedFp : Key) : Except SdpBridgeError SdpBridgeResult :=
  if pinnedFp = .replicate 32 0 then
    .error (.invalidPin "all-zero DTLS pin (anti-downgrade sentinel) is not a valid commitment")
  else acceptOfferInner rtc offerSdp ⟨"sha-256",pinnedFp.toList⟩

end Builder

def hexPair : Text → Option UInt8
  | [x,y] =>
    match Text.toDigit16 x, Text.toDigit16 y with
    | some high, some low => some (UInt8.ofNat (16 * high + low))
    | _, _ => none
  | _ => none

def signedDigit : Text → Option UInt8
  | [x,y] => if x = '+' then (Text.toDigit16 y).map UInt8.ofNat else none
  | _ => none

/-- A line that a fingerprint is read from. -/
def isFingerprintLine (line : Text) : Bool :=
  line.len ≤ maxSdpLineLen && Text.eqIgnoreAsciiCase (line.take fingerprintStart.length) fingerprintStart

def fingerprintLine (sdp : Text) : Option Text := (sdp.lines.take maxSdpLines).find? isFingerprintLine

def fingerprintGroups (line : Text) : List Text := Text.split ':' (line.drop fingerprintStart.length)

/-- The documented form: the first fingerprint line goes on with 32 groups of two hexadecimal digits. -/
def WellFormed (sdp : Text) (bytes : Bytes) : Prop :=
  ∃ line, fingerprintLine sdp = some line ∧ bytes.length = 32 ∧ (fingerprintGroups line).map hexPair = bytes.map some

/-- The first fingerprint line goes on with 32 groups of two digits or of a sign and a digit, and has one
with a sign. -/
def HasSignedGroup (sdp : Text) : Prop :=
  ∃ line, fingerprintLine sdp = some line ∧ (fingerprintGroups line).length = 32 ∧
    (∀ group ∈ fingerprintGroups line, (hexPair group).isSome ∨ (signedDigit group).isSome) ∧
    ∃ group ∈ fingerprintGroups line, (signedDigit group).isSome

/-- What the integer parser makes of a group of two bytes. -/
def groupByte (group : Text) : Option UInt8 := (hexPair group).or (signedDigit group)

variable {bytes : Bytes} {group : Text}

theorem hexPair_of_signed (signed : (signedDigit group).isSome) : hexPair group = none := by
  match group with
  | [] => rfl
  | [_] => rfl
  | [x,y] =>
    by_cases plus : x = '+'
    · subst plus
      rfl
    · simp [signedDigit,plus] at signed
  | _ :: _ :: _ :: _ => rfl

theorem radix_pair (x y : Char) : Text.u8FromStrRadix16 [x,y] = groupByte [x,y] := by
  by_cases plus : x = '+'
  · subst plus
    have none : Text.toDigit16 '+' = none := rfl
    cases low : Text.toDigit16 y with
    | none => simp [Text.u8FromStrRadix16,groupByte,hexPair,signedDigit,low,none]
    | some d =>
      have small : d < 256 := (Text.toDigit16_some low).2.trans (by decide)
      simp [Text.u8FromStrRadix16,groupByte,hexPair,signedDigit,low,none,small]
  · cases high : Text.toDigit16 x with
    | none => simp [Text.u8FromStrRadix16,groupByte,hexPair,signedDigit,plus,high]
    | some a =>
      have first := (Text.toDigit16_some high).2
      have small : a < 256 := first.trans (by decide)
      cases low : Text.toDigit16 y with
      | none => simp [Text.u8FromStrRadix16,groupByte,hexPair,signedDigit,plus,high,low,small]
      | some b =>
        have second := (Text.toDigit16_some low).2
        have inside : a * 16 + b < 256 := by omega
        simp [Text.u8FromStrRadix16,groupByte,hexPair,signedDigit,plus,high,low,small,inside,Nat.mul_comm]

/-- A group of two bytes is two ASCII characters, or one longer character, which is no digit. -/
theorem radix_of_len (width : group.len = 2) : group.u8FromStrRadix16 = groupByte group := by
  match group with
  | [] => rfl
  | [x] =>
    have wide : x.utf8Size = 2 := by simpa [Text.len] using width
    cases found : Text.toDigit16 x with
    | none =>
      by_cases plus : x = '+' <;> simp [Text.u8FromStrRadix16,groupByte,hexPair,signedDigit,plus,found]
    | some digit =>
      have narrow := (Text.toDigit16_some found).1
      omega
  | [x,y] => exact radix_pair x y
  | x :: y :: z :: rest =>
    have first := Char.utf8Size_pos x
    have second := Char.utf8Size_pos y
    have third := Char.utf8Size_pos z
    simp only [Text.len,List.map_cons,List.sum_cons] at width
    omega

theorem len_of_groupByte {byte : UInt8} (found : groupByte group = some byte) : group.len = 2 := by
  match group with
  | [x,y] =>
    have ascii : x.utf8Size = 1 ∧ y.utf8Size = 1 := by
      cases low : Text.toDigit16 y with
      | none => cases high : Text.toDigit16 x <;> simp [groupByte,hexPair,signedDigit,low,high] at found
      | some d =>
        refine ⟨?_,(Text.toDigit16_some low).1⟩
        cases high : Text.toDigit16 x with
        | some e => exact (Text.toDigit16_some high).1
        | none =>
          have plus : x = '+' := by
            by_contra other
            simp [groupByte,hexPair,signedDigit,low,high,other] at found
          rw [plus]
          rfl
    simp [Text.len,ascii]

theorem groupByte_toAsciiLowercase (group : Text) : groupByte group.toAsciiLowercase = groupByte group := by
  match group with
  | [] => rfl
  | [_] => rfl
  | [x,y] =>
    have plus := @Text.toLower_eq_iff x '+' (by decide)
    simp [groupByte,hexPair,signedDigit,Text.toAsciiLowercase,plus]
  | _ :: _ :: _ :: _ => rfl

theorem decodeGroups_cons (group : Text) (rest : List Text) (bytes : Bytes) :
    decodeFingerprintGroups (group :: rest) bytes =
      if group.len ≠ 2 then .error (.fingerprintParseError "each hex group must be exactly 2 characters")
      else match groupByte group with
        | none => .error (.fingerprintParseError "fingerprint hex group is not valid hexadecimal")
        | some byte => decodeFingerprintGroups rest (bytes ++ [byte]) := by
  rw [decodeFingerprintGroups]
  by_cases width : group.len = 2
  · simp only [width,radix_of_len width]
  · simp only [ne_eq,width,not_false_eq_true,if_true]

theorem decodeGroups_toAsciiLowercase (groups : List Text) (bytes : Bytes) :
    decodeFingerprintGroups (groups.map Text.toAsciiLowercase) bytes = decodeFingerprintGroups groups bytes := by
  induction groups generalizing bytes with
  | nil => rfl
  | cons group rest ih =>
    rw [List.map_cons,decodeGroups_cons,decodeGroups_cons,Text.len_toAsciiLowercase,groupByte_toAsciiLowercase]
    simp only [ih]

theorem decodeHex_toAsciiLowercase (hexPart : Text) :
    decodeFingerprintHex hexPart.toAsciiLowercase = decodeFingerprintHex hexPart := by
  simp only [decodeFingerprintHex,Text.split_toAsciiLowercase (show ':'.toNat < 65 by decide),
    decodeGroups_toAsciiLowercase,List.isEmpty_map]

variable {groups : List Text}

theorem decodeGroups_ok_iff {out bytes : Bytes} : decodeFingerprintGroups groups out = .ok bytes ↔
    ∃ tail, bytes = out ++ tail ∧ groups.map groupByte = tail.map some := by
  induction groups generalizing out with
  | nil =>
    simp only [decodeFingerprintGroups,List.map_nil,List.nil_eq,List.map_eq_nil_iff,exists_eq_right,List.append_nil]
    exact ⟨fun decoded => (Except.ok.inj decoded).symm,fun same => congrArg Except.ok same.symm⟩
  | cons group rest ih =>
    rw [decodeGroups_cons]
    cases found : groupByte group with
    | none =>
      constructor
      · intro decoded
        split_ifs at decoded
      · rintro ⟨tail,-,all⟩
        cases tail <;> simp [found] at all
    | some byte =>
      rw [if_neg (not_not.mpr (len_of_groupByte found)),ih]
      constructor
      · rintro ⟨tail,rfl,all⟩
        exact ⟨byte :: tail,by simp,by simp [found,all]⟩
      · rintro ⟨tail,rfl,all⟩
        cases tail with
        | nil => simp at all
        | cons first later =>
          obtain ⟨same,others⟩ := List.cons.inj all
          obtain rfl := Option.some.inj (found.symm.trans same)
          exact ⟨later,by simp,others⟩

theorem decodeHex_ok_iff {hexPart : Text} {fp : Fingerprint} : decodeFingerprintHex hexPart = .ok fp ↔
    ∃ bytes, fp = ⟨"sha-256",bytes⟩ ∧ bytes.length = 32 ∧ (hexPart.split ':').map groupByte = bytes.map some := by
  have parts : (hexPart.split ':').isEmpty = false := List.isEmpty_eq_false_iff.mpr (List.splitOn_ne_nil _ _)
  have groups : ∀ bytes, decodeFingerprintGroups (hexPart.split ':') [] = .ok bytes ↔
      (hexPart.split ':').map groupByte = bytes.map some := by
    intro bytes
    rw [decodeGroups_ok_iff]
    simp
  simp only [decodeFingerprintHex,parts,Bool.false_eq_true,if_false,← groups]
  cases decodeFingerprintGroups (hexPart.split ':') [] with
  | error e => simp
  | ok bytes =>
    by_cases size : bytes.length = 32
    · simp [size,eq_comm]
    · simp [size]

theorem lower_start : fingerprintStart.map Char.toLower = fingerprintStart := by decide

/-- A line begins like a fingerprint line when it does so in lower case. -/
theorem begins_iff (line : Text) : Text.eqIgnoreAsciiCase (line.take fingerprintStart.length) fingerprintStart = true ↔
    fingerprintStart.isPrefixOf line.toAsciiLowercase = true := by
  rw [Text.eqIgnoreAsciiCase,lower_start,beq_iff_eq,List.isPrefixOf_iff_prefix,List.prefix_iff_eq_take,List.map_take]
  exact eq_comm

theorem begins_of_exact {line : Text} (exactly : fingerprintStart.isPrefixOf line = true) :
    fingerprintStart.isPrefixOf line.toAsciiLowercase = true := by
  rw [List.isPrefixOf_iff_prefix] at exactly ⊢
  have lowered := exactly.map Char.toLower
  rwa [lower_start] at lowered

theorem scanSdpLines_eq (i : Nat) (lines : List Text) : scanSdpLines i lines =
    match (lines.take (maxSdpLines - i)).find? isFingerprintLine with
    | some line => decodeFingerprintHex (line.drop fingerprintStart.length)
    | none => .error .noFingerprint := by
  induction lines generalizing i with
  | nil =>
    rw [List.take_nil]
    rfl
  | cons line rest ih =>
    rw [scanSdpLines]
    by_cases late : i ≥ maxSdpLines
    · rw [if_pos late,Nat.sub_eq_zero_of_le late]
      rfl
    have left : maxSdpLines - i = maxSdpLines - (i + 1) + 1 := by omega
    rw [if_neg late,left,List.take_succ_cons,List.find?_cons,ih]
    by_cases long : line.len > maxSdpLineLen
    · have skipped : isFingerprintLine line = false := by simp [isFingerprintLine,long]
      rw [if_pos long,skipped]
    rw [if_neg long]
    have begins : isFingerprintLine line = fingerprintStart.isPrefixOf line.toAsciiLowercase := by
      rw [Bool.eq_iff_iff,← begins_iff,isFingerprintLine,Bool.and_eq_true,decide_eq_true_eq]
      exact and_iff_right (Nat.le_of_not_lt long)
    rw [begins]
    by_cases exactly : fingerprintStart.isPrefixOf line = true
    · simp only [Text.stripPrefix,exactly,begins_of_exact exactly,if_true]
    by_cases lower : fingerprintStart.isPrefixOf line.toAsciiLowercase = true
    · have part : line.toAsciiLowercase.drop fingerprintStart.length =
          Text.toAsciiLowercase (line.drop fingerprintStart.length) :=
        List.map_drop.symm
      simp only [Text.stripPrefix,exactly,lower,if_true,part]
      exact decodeHex_toAsciiLowercase _
    · simp only [Text.stripPrefix,exactly,lower,Bool.false_eq_true,if_false]

/-- What the parser accepts: the groups may be two digits, or a sign and a digit. -/
theorem parseSdpFingerprint_ok_iff {sdp : Text} {fp : Fingerprint} : parseSdpFingerprint sdp = .ok fp ↔
    ∃ bytes line, fp = ⟨"sha-256",bytes⟩ ∧ fingerprintLine sdp = some line ∧ bytes.length = 32 ∧
      (fingerprintGroups line).map groupByte = bytes.map some := by
  have scanned := scanSdpLines_eq 0 sdp.lines
  rw [parseSdpFingerprint,scanned,Nat.sub_zero]
  change (match fingerprintLine sdp with | some line => _ | none => _) = _ ↔ _
  cases fingerprintLine sdp with
  | none => simp
  | some line => simp [decodeHex_ok_iff,fingerprintGroups]

theorem groupByte_of_hexPair (all : groups.map hexPair = bytes.map some) :
    groups.map groupByte = bytes.map some := by
  rw [← all]
  refine List.map_congr_left fun group member => ?_
  have found : hexPair group ∈ bytes.map some := all ▸ List.mem_map_of_mem member
  obtain ⟨byte,-,pair⟩ := List.mem_map.mp found
  rw [groupByte,← pair]
  rfl

theorem hexPair_of_groupByte (all : groups.map groupByte = bytes.map some)
    (unsigned : ∀ group ∈ groups, ¬(signedDigit group).isSome) : groups.map hexPair = bytes.map some := by
  rw [← all]
  refine List.map_congr_left fun group member => ?_
  have none : signedDigit group = none := Option.not_isSome_iff_eq_none.mp (unsigned group member)
  rw [groupByte,none,Option.or_none]

/-- The groups that the parser accepts are those that have a byte. -/
theorem exists_bytes_iff (groups : List Text) : (∃ bytes : Bytes, groups.map groupByte = bytes.map some) ↔
    ∀ group ∈ groups, (hexPair group).isSome ∨ (signedDigit group).isSome := by
  have each : ∀ group, (groupByte group).isSome ↔ (hexPair group).isSome ∨ (signedDigit group).isSome := by
    intro group
    rw [groupByte,Option.isSome_or,Bool.or_eq_true]
  constructor
  · rintro ⟨bytes,all⟩ group member
    have found : groupByte group ∈ bytes.map some := all ▸ List.mem_map_of_mem member
    obtain ⟨byte,-,same⟩ := List.mem_map.mp found
    exact (each group).mp (by rw [← same]; rfl)
  · intro accepted
    refine ⟨groups.filterMap groupByte,?_⟩
    induction groups with
    | nil => rfl
    | cons group rest ih =>
      obtain ⟨first,later⟩ := List.forall_mem_cons.mp accepted
      obtain ⟨byte,found⟩ := Option.isSome_iff_exists.mp ((each group).mpr first)
      rw [List.map_cons,ih later,List.filterMap_cons_some found,List.map_cons,found]

theorem length_of_groupByte (all : groups.map groupByte = bytes.map some) :
    groups.length = bytes.length := by
  simpa using congrArg List.length all

/-- The parser returns exactly the documented fingerprints, unless a group of an accepted line is a sign
and a digit. -/
theorem fingerprint_exact_iff (sdp : Text) :
    (∀ fp, parseSdpFingerprint sdp = .ok fp ↔ ∃ bytes, fp = ⟨"sha-256",bytes⟩ ∧ WellFormed sdp bytes) ↔
      ¬HasSignedGroup sdp := by
  constructor
  · rintro exactly ⟨line,found,size,accepted,group,member,signed⟩
    obtain ⟨bytes,all⟩ := (exists_bytes_iff _).mpr accepted
    have parsed := parseSdpFingerprint_ok_iff.mpr ⟨bytes,line,rfl,found,(length_of_groupByte all).symm.trans size,all⟩
    obtain ⟨bytes',-,line',found',-,pairs⟩ := (exactly _).mp parsed
    obtain rfl := Option.some.inj (found.symm.trans found')
    have none : none ∈ bytes'.map some := pairs ▸ List.mem_map.mpr ⟨group,member,hexPair_of_signed signed⟩
    simp at none
  · intro unsigned fp
    rw [parseSdpFingerprint_ok_iff]
    constructor
    · rintro ⟨bytes,line,rfl,found,size,all⟩
      refine ⟨bytes,rfl,line,found,size,hexPair_of_groupByte all fun group member signed => unsigned ?_⟩
      exact ⟨line,found,(length_of_groupByte all).trans size,(exists_bytes_iff _).mp ⟨bytes,all⟩,group,member,signed⟩
    · rintro ⟨bytes,rfl,line,found,size,pairs⟩
      exact ⟨bytes,line,rfl,found,size,groupByte_of_hexPair pairs⟩

def signedOffer : Text := "a=fingerprint:sha-256 +A".toList ++ (List.replicate 31 ":00".toList).flatten

/-- The sign is read as part of a number, though the line has no documented form. -/
theorem sign_read_as_number : parseSdpFingerprint signedOffer = .ok ⟨"sha-256",10 :: List.replicate 31 0⟩ ∧
    ∀ bytes, ¬WellFormed signedOffer bytes := by
  refine ⟨by decide +kernel,?_⟩
  rintro bytes ⟨line,found,-,pairs⟩
  have first : fingerprintLine signedOffer = some signedOffer := by decide +kernel
  obtain rfl := Option.some.inj (first.symm.trans found)
  have none : none ∈ bytes.map some := pairs ▸ (by decide +kernel : none ∈ (fingerprintGroups signedOffer).map hexPair)
  simp at none

section Builder

variable {Offer : Type} {rtc : Rtc Offer} {offerSdp : Text} {result : SdpBridgeResult}

theorem pinned_of_acceptOfferInner {remoteFp : Fingerprint} (accepted : acceptOfferInner rtc offerSdp remoteFp = .ok result) :
    offerSdp.len ≤ maxSdpBytes ∧ result.pinnedDtlsFingerprint = remoteFp := by
  simp only [acceptOfferInner] at accepted
  split_ifs at accepted with large
  refine ⟨Nat.le_of_not_lt large,?_⟩
  cases parsed : rtc.fromSdpString offerSdp with
  | error e => simp [parsed] at accepted
  | ok offer =>
    cases answered : rtc.acceptOffer offer with
    | error e => simp [parsed,answered] at accepted
    | ok answer =>
      simp only [parsed,answered] at accepted
      rw [← Except.ok.inj accepted]

/-- An offer is accepted only with the fingerprint that its first fingerprint line carries. -/
theorem pinned_of_acceptBrowserOffer (accepted : acceptBrowserOffer rtc offerSdp = .ok result) :
    parseSdpFingerprint offerSdp = .ok result.pinnedDtlsFingerprint ∧ result.pinnedDtlsFingerprint.bytes.length = 32 := by
  simp only [acceptBrowserOffer] at accepted
  split_ifs at accepted with large
  cases parsed : parseSdpFingerprint offerSdp with
  | error e => simp [parsed] at accepted
  | ok remoteFp =>
    simp only [parsed] at accepted
    obtain ⟨-,same⟩ := pinned_of_acceptOfferInner accepted
    obtain ⟨bytes,-,rfl,-,size,-⟩ := parseSdpFingerprint_ok_iff.mp parsed
    rw [same]
    exact ⟨rfl,size⟩

/-- With an identity-bound pin, the transport is pinned to it whatever the description says, and never to zeros. -/
theorem pinned_of_acceptBrowserOfferWithPin {pinnedFp : Key}
    (accepted : acceptBrowserOfferWithPin rtc offerSdp pinnedFp = .ok result) :
    result.pinnedDtlsFingerprint = ⟨"sha-256",pinnedFp.toList⟩ ∧ pinnedFp ≠ .replicate 32 0 := by
  simp only [acceptBrowserOfferWithPin] at accepted
  split_ifs at accepted with zeros
  exact ⟨(pinned_of_acceptOfferInner accepted).2,zeros⟩

end Builder

end SdpBridge

end Streamhaul
