import Streamhaul.ContentClassifier
import Streamhaul.ShpHeaders

/-! Codec negotiation: the four bytes of capabilities that peers exchange, the ladder of codecs the host
derives from both sides, and the rule by which the browser picks on its own. -/
namespace Streamhaul

def codecCapsLen : Nat := 4
def noCodecSentinel : UInt8 := 0xFF
def flagSwH264 : UInt8 := 0b001
def flagIsApple : UInt8 := 0b010
def flagIsBrowser : UInt8 := 0b100
def flagsReservedMask : UInt8 := 0b11111000
def codecMaskReserved : UInt8 := 0b11111000
def codecDiscH264 : UInt8 := 0
def codecDiscH265 : UInt8 := 1
def codecDiscAv1 : UInt8 := 2

structure CodecCapsPayload where
  hwEncodeMask : UInt8
  hwDecodeMask : UInt8
  swH264EncodeAvailable : Bool
  isApple : Bool
  isBrowser : Bool
  selectedCodec : Option UInt8
  deriving DecidableEq

def selectable (disc : UInt8) : Bool := disc = codecDiscH264 ∨ disc = codecDiscH265 ∨ disc = codecDiscAv1

def packFlags (swH264 apple browser : Bool) : UInt8 :=
  (if swH264 then flagSwH264 else 0) ||| (if apple then flagIsApple else 0) ||| (if browser then flagIsBrowser else 0)

def encodeCaps (payload : CodecCapsPayload) : Except ProtocolError Bytes :=
  if payload.hwEncodeMask &&& codecMaskReserved ≠ 0 then .error .reservedBitsSet
  else if payload.hwDecodeMask &&& codecMaskReserved ≠ 0 then .error .reservedBitsSet
  else
    let flags := packFlags payload.swH264EncodeAvailable payload.isApple payload.isBrowser
    match payload.selectedCodec with
    | none => .ok [payload.hwEncodeMask,payload.hwDecodeMask,flags,noCodecSentinel]
    | some disc =>
      if selectable disc then .ok [payload.hwEncodeMask,payload.hwDecodeMask,flags,disc]
      else .error (.invalidCodec disc)

def decodeCaps (data : Bytes) : Except ProtocolError CodecCapsPayload :=
  match data with
  | hwEncodeMask :: hwDecodeMask :: flags :: selectedRaw :: _ =>
    if flags &&& flagsReservedMask ≠ 0 then .error .reservedBitsSet
    else if hwEncodeMask &&& codecMaskReserved ≠ 0 ∨ hwDecodeMask &&& codecMaskReserved ≠ 0 then .error .reservedBitsSet
    else if selectedRaw ≠ noCodecSentinel ∧ ¬selectable selectedRaw then .error (.invalidCodec selectedRaw)
    else .ok {
      hwEncodeMask := hwEncodeMask
      hwDecodeMask := hwDecodeMask
      swH264EncodeAvailable := flags &&& flagSwH264 != 0
      isApple := flags &&& flagIsApple != 0
      isBrowser := flags &&& flagIsBrowser != 0
      selectedCodec := if selectedRaw = noCodecSentinel then none else some selectedRaw }
  | _ => .error (.truncated codecCapsLen data.length)

inductive BuildFlavor where
  | oss | commercial
  deriving DecidableEq

structure CodecCapabilities where
  hwEncodeMask : UInt8
  hwDecodeMask : UInt8
  swH264EncodeAvailable : Bool
  isApple : Bool
  isBrowser : Bool
  deriving DecidableEq

namespace CodecCapabilities

def fromWire (wire : CodecCapsPayload) : CodecCapabilities :=
  ⟨wire.hwEncodeMask,wire.hwDecodeMask,wire.swH264EncodeAvailable,wire.isApple,wire.isBrowser⟩

def toWireOffer (caps : CodecCapabilities) : CodecCapsPayload :=
  ⟨caps.hwEncodeMask,caps.hwDecodeMask,caps.swH264EncodeAvailable,caps.isApple,caps.isBrowser,none⟩

variable (caps : CodecCapabilities) (disc : UInt8)

def canHwEncode : Bool := (caps.hwEncodeMask >>> disc) &&& 1 == 1

def canHwDecode : Bool := (caps.hwDecodeMask >>> disc) &&& 1 == 1

/-- A browser decodes H.264 whatever its mask is. -/
def canDecode : Bool :=
  if caps.canHwDecode disc then true else caps.isBrowser && disc == codecDiscH264

end CodecCapabilities

structure CodecChoice where
  codec : Codec
  hardware : Bool
  rateLimited : Bool
  deriving DecidableEq

namespace CodecChoice

def hw (codec : Codec) : CodecChoice := ⟨codec,true,false⟩

def swH264 : CodecChoice := ⟨.h264,false,true⟩

def discriminant (choice : CodecChoice) : UInt8 :=
  match choice.codec with
  | .h264 => codecDiscH264
  | .h265 => codecDiscH265
  | .av1 => codecDiscAv1
  | .raw => 3

end CodecChoice

namespace CodecNegotiator

def candidateRungs (mode : ContentMode) (flavor : BuildFlavor) : List CodecChoice :=
  match flavor,mode with
  | .commercial,_ => [.hw .h265,.hw .av1,.hw .h264]
  | .oss,.game | .oss,.scrolling => [.hw .av1,.hw .h264,.swH264]
  | .oss,.work => [.hw .av1,.hw .h264]

def rungIsViable (candidate : CodecChoice) (localCaps remoteCaps : CodecCapabilities) : Bool :=
  let disc := candidate.discriminant
  let localCanEncode :=
    if candidate.hardware then
      if localCaps.isApple ∧ disc = codecDiscAv1 then false else localCaps.canHwEncode disc
    else disc == codecDiscH264 && localCaps.swH264EncodeAvailable
  if ¬localCanEncode then false else remoteCaps.canDecode disc

def ladder (localCaps remoteCaps : CodecCapabilities) (mode : ContentMode) (flavor : BuildFlavor) : List CodecChoice :=
  (candidateRungs mode flavor).filter fun candidate => rungIsViable candidate localCaps remoteCaps

def select (ladder : List CodecChoice) : Option CodecChoice := ladder.head?

def degrade (current : CodecChoice) (ladder : List CodecChoice) : Option CodecChoice :=
  match ladder.findIdx? (fun rung => rung = current) with
  | none => none
  | some pos => ladder[pos + 1]?

end CodecNegotiator

/-! The browser. -/

def codecNone : UInt8 := 0xFF

/-- The bridge takes the sentinel for no codec. -/
def bridgeEncodeCaps (hwEncodeMask hwDecodeMask : UInt8) (swH264EncodeAvailable isApple isBrowser : Bool)
    (selectedCodec : UInt8) : Except ProtocolError Bytes :=
  encodeCaps ⟨hwEncodeMask,hwDecodeMask,swH264EncodeAvailable,isApple,isBrowser,
    if selectedCodec = 0xFF then none else some selectedCodec⟩

def decodeBit (codec : UInt8) : UInt8 := 1 <<< codec

def buildBrowserOffer : Except ProtocolError Bytes :=
  bridgeEncodeCaps 0 (decodeBit codecDiscH264) false false true codecNone

inductive SelectError where
  | bridge (e : ProtocolError)
  | noCommonCodec
  deriving DecidableEq

structure CodecSelection where
  codec : UInt8
  answerBytes : Bytes
  deriving DecidableEq

def selectCodec (hostCapsBytes : Bytes) : Except SelectError CodecSelection :=
  match decodeCaps hostCapsBytes with
  | .error e => .error (.bridge e)
  | .ok host =>
    if host.hwEncodeMask &&& decodeBit codecDiscH264 ≠ 0 ∨ host.swH264EncodeAvailable then
      match bridgeEncodeCaps 0 (decodeBit codecDiscH264) false false true codecDiscH264 with
      | .error e => .error (.bridge e)
      | .ok answerBytes => .ok ⟨codecDiscH264,answerBytes⟩
    else .error .noCommonCodec

section Wire

theorem packFlags_bits (swH264 apple browser : Bool) :
    packFlags swH264 apple browser &&& flagsReservedMask = 0 ∧
      (packFlags swH264 apple browser &&& flagSwH264 != 0) = swH264 ∧
      (packFlags swH264 apple browser &&& flagIsApple != 0) = apple ∧
      (packFlags swH264 apple browser &&& flagIsBrowser != 0) = browser := by
  cases swH264 <;> cases apple <;> cases browser <;> decide

theorem packFlags_read {flags : UInt8} (clear : flags &&& flagsReservedMask = 0) :
    packFlags (flags &&& flagSwH264 != 0) (flags &&& flagIsApple != 0) (flags &&& flagIsBrowser != 0) = flags := by
  have all : ∀ n : Fin 256, UInt8.ofNat n.val &&& flagsReservedMask = 0 →
      packFlags (UInt8.ofNat n.val &&& flagSwH264 != 0) (UInt8.ofNat n.val &&& flagIsApple != 0)
        (UInt8.ofNat n.val &&& flagIsBrowser != 0) = UInt8.ofNat n.val := by decide +kernel
  have here := all ⟨flags.toNat,flags.toNat_lt⟩
  simp only [UInt8.ofNat_toNat] at here
  exact here clear

theorem not_selectable_sentinel : selectable noCodecSentinel = false := by decide

theorem decodeCaps_ok_iff (data : Bytes) (payload : CodecCapsPayload) :
    decodeCaps data = .ok payload ↔ ∃ bytes rest, encodeCaps payload = .ok bytes ∧ data = bytes ++ rest := by
  constructor
  · intro decoded
    unfold decodeCaps at decoded
    split at decoded
    · next encode decode flags selected rest =>
      split_ifs at decoded with reserved masks unknown none
      · subst none
        cases decoded
        rw [not_or,not_not,not_not] at masks
        refine ⟨[encode,decode,flags,noCodecSentinel],rest,?_,rfl⟩
        simp only [encodeCaps,masks.1,masks.2,ne_eq,not_true_eq_false,if_false,packFlags_read (not_not.mp reserved)]
      · cases decoded
        rw [not_or,not_not,not_not] at masks
        have known : selectable selected = true := by
          by_contra other
          exact unknown ⟨none,other⟩
        refine ⟨[encode,decode,flags,selected],rest,?_,rfl⟩
        simp only [encodeCaps,masks.1,masks.2,ne_eq,not_true_eq_false,if_false,known,if_true,
          packFlags_read (not_not.mp reserved)]
    · cases decoded
  · rintro ⟨bytes,rest,encoded,rfl⟩
    obtain ⟨encode,decode,swH264,apple,browser,selected⟩ := payload
    obtain ⟨clear,first,second,third⟩ := packFlags_bits swH264 apple browser
    unfold encodeCaps at encoded
    split_ifs at encoded with reserved reserved'
    rw [not_not] at reserved reserved'
    simp only at encoded reserved reserved'
    cases selected with
    | none =>
      cases encoded
      simp [decodeCaps,clear,reserved,reserved',first,second,third]
    | some disc =>
      by_cases known : selectable disc = true
      · have other : disc ≠ noCodecSentinel := by
          rintro rfl
          rw [not_selectable_sentinel] at known
          cases known
        simp only [known,if_true,Except.ok.injEq] at encoded
        subst encoded
        simp [decodeCaps,clear,reserved,reserved',first,second,third,other,known]
      · simp [known] at encoded

theorem decodeCaps_offer {caps : CodecCapabilities} {bytes : Bytes} (encoded : encodeCaps caps.toWireOffer = .ok bytes) :
    decodeCaps bytes = .ok caps.toWireOffer :=
  (decodeCaps_ok_iff bytes caps.toWireOffer).mpr ⟨bytes,[],encoded,(List.append_nil bytes).symm⟩

end Wire

namespace CodecNegotiator

section Ladder

variable (localCaps remoteCaps : CodecCapabilities) (mode : ContentMode) (flavor : BuildFlavor)

theorem candidateRungs_nodup : (candidateRungs mode flavor).Nodup := by
  cases flavor <;> cases mode <;> decide

theorem ladder_nodup : (ladder localCaps remoteCaps mode flavor).Nodup := (candidateRungs_nodup mode flavor).filter _

theorem rungIsViable_iff (candidate : CodecChoice) :
    rungIsViable candidate localCaps remoteCaps = true ↔
      remoteCaps.canDecode candidate.discriminant = true ∧
      (candidate.hardware = true → localCaps.canHwEncode candidate.discriminant = true ∧
        ¬(localCaps.isApple = true ∧ candidate.discriminant = codecDiscAv1)) ∧
      (candidate.hardware = false → candidate.discriminant = codecDiscH264 ∧ localCaps.swH264EncodeAvailable = true) := by
  unfold rungIsViable
  cases candidate.hardware with
  | true =>
    by_cases apple : localCaps.isApple = true ∧ candidate.discriminant = codecDiscAv1
    · simp [apple]
    · simp [apple]
      tauto
  | false =>
    simp
    tauto

theorem mem_candidateRungs {candidate : CodecChoice} (member : candidate ∈ candidateRungs mode flavor) :
    candidate.codec ≠ .raw ∧ (candidate.codec = .h265 → flavor = .commercial) ∧
      (candidate.hardware = false → candidate = .swH264 ∧ flavor = .oss ∧ mode ≠ .work) ∧
      (candidate.rateLimited = true → candidate.hardware = false) := by
  cases flavor <;> cases mode <;> revert candidate <;> decide

theorem mem_ladder_iff (candidate : CodecChoice) :
    candidate ∈ ladder localCaps remoteCaps mode flavor ↔ candidate ∈ candidateRungs mode flavor ∧
      remoteCaps.canDecode candidate.discriminant = true ∧
      (candidate.hardware = true → localCaps.canHwEncode candidate.discriminant = true ∧
        ¬(localCaps.isApple = true ∧ candidate.discriminant = codecDiscAv1)) ∧
      (candidate.hardware = false → localCaps.swH264EncodeAvailable = true) := by
  rw [ladder,List.mem_filter,rungIsViable_iff]
  refine and_congr_right fun member => and_congr_right fun _ => and_congr_right fun _ => ?_
  refine forall_congr' fun soft => and_iff_right ?_
  rw [((mem_candidateRungs mode flavor member).2.2.1 soft).1]
  rfl

theorem software_last {n : Nat} (here : (ladder localCaps remoteCaps mode flavor)[n]? = some .swH264) :
    (ladder localCaps remoteCaps mode flavor)[n + 1]? = none := by
  have distinct := ladder_nodup localCaps remoteCaps mode flavor
  have viable := List.of_mem_filter (List.mem_of_getElem? here)
  have candidate := List.mem_of_mem_filter (List.mem_of_getElem? here)
  obtain ⟨-,rfl,idle⟩ := (mem_candidateRungs mode flavor candidate).2.2.1 rfl
  have last : candidateRungs mode .oss = [.hw .av1,.hw .h264] ++ [.swH264] := by
    cases mode with
    | work => exact absurd rfl idle
    | scrolling => rfl
    | game => rfl
  have split : ladder localCaps remoteCaps mode .oss =
      ([.hw .av1,.hw .h264] : List CodecChoice).filter (fun rung => rungIsViable rung localCaps remoteCaps) ++ [.swH264] := by
    rw [ladder,last,List.filter_append]
    congr 1
    simp [viable]
  rw [split] at here distinct ⊢
  generalize ([.hw .av1,.hw .h264] : List CodecChoice).filter (fun rung => rungIsViable rung localCaps remoteCaps) = front at *
  have bottom : (front ++ [CodecChoice.swH264])[front.length]? = some .swH264 := by simp
  obtain ⟨inside,_⟩ := List.getElem?_eq_some_iff.mp here
  have place : n = front.length := (List.getElem?_inj inside distinct).mp (here.trans bottom.symm)
  rw [place]
  exact List.getElem?_eq_none (by simp)

end Ladder

section Descent

variable {rungs : List CodecChoice}

def descent (rungs : List CodecChoice) : Nat → Option CodecChoice
  | 0 => select rungs
  | n + 1 =>
    match descent rungs n with
    | none => none
    | some current => degrade current rungs

theorem degrade_getElem (distinct : rungs.Nodup) {n : Nat} {current : CodecChoice} (here : rungs[n]? = some current) :
    degrade current rungs = rungs[n + 1]? := by
  obtain ⟨inside,same⟩ := List.getElem?_eq_some_iff.mp here
  have found : rungs.findIdx? (fun rung => rung = current) = some n := by
    rw [List.findIdx?_eq_some_iff_getElem]
    refine ⟨inside,by simp [same],fun j earlier => ?_⟩
    simp only [decide_eq_true_eq]
    intro again
    have index := (List.Nodup.getElem_inj_iff distinct).mp (again.trans same.symm)
    omega
  rw [degrade,found]

theorem descent_eq (distinct : rungs.Nodup) (n : Nat) : descent rungs n = rungs[n]? := by
  induction n with
  | zero => rw [descent,select,List.head?_eq_getElem?]
  | succ n ih =>
    rw [descent,ih]
    cases here : rungs[n]? with
    | none =>
      have beyond := List.getElem?_eq_none_iff.mp here
      exact (List.getElem?_eq_none (by omega)).symm
    | some current => exact degrade_getElem distinct here

end Descent

/-- From the offers on the wire to the last fallback: a peer derives its ladder from what the other one
has offered, and by degrading goes through it from top to bottom, each rung once. Every rung can be
encoded here and decoded there, H.265 is only on the ladder of a commercial build, and software
only as the last rung of an open one, never while the content is work. -/
theorem ladder_descends (localCaps remoteCaps : CodecCapabilities) (mode : ContentMode) (flavor : BuildFlavor) (offer : Bytes)
    (offered : encodeCaps remoteCaps.toWireOffer = .ok offer) :
    ∃ wire, decodeCaps offer = .ok wire ∧
      let rungs := ladder localCaps (.fromWire wire) mode flavor
      (∀ n, descent rungs n = rungs[n]?) ∧ rungs.Nodup ∧
      (∀ candidate, candidate ∈ rungs ↔ candidate ∈ candidateRungs mode flavor ∧
        remoteCaps.canDecode candidate.discriminant = true ∧
        (candidate.hardware = true → localCaps.canHwEncode candidate.discriminant = true ∧
          ¬(localCaps.isApple = true ∧ candidate.discriminant = codecDiscAv1)) ∧
        (candidate.hardware = false → localCaps.swH264EncodeAvailable = true)) ∧
      ∀ n candidate, descent rungs n = some candidate →
        candidate.codec ≠ .raw ∧ (candidate.codec = .h265 → flavor = .commercial) ∧
        (candidate.hardware = false → flavor = .oss ∧ mode ≠ .work ∧ descent rungs (n + 1) = none) := by
  refine ⟨remoteCaps.toWireOffer,decodeCaps_offer offered,?_⟩
  have same : CodecCapabilities.fromWire remoteCaps.toWireOffer = remoteCaps := rfl
  rw [same]
  intro rungs
  have distinct := ladder_nodup localCaps remoteCaps mode flavor
  have walk := descent_eq distinct
  refine ⟨walk,distinct,mem_ladder_iff localCaps remoteCaps mode flavor,fun n candidate here => ?_⟩
  rw [walk] at here
  have candidates := List.mem_of_mem_filter (List.mem_of_getElem? here)
  obtain ⟨raw,commercial,software,_⟩ := mem_candidateRungs mode flavor candidates
  refine ⟨raw,commercial,fun soft => ?_⟩
  obtain ⟨rfl,oss,idle⟩ := software soft
  exact ⟨oss,idle,by rw [walk,software_last localCaps remoteCaps mode flavor here]⟩

/-- A host with every encoder against a peer that decodes everything. -/
theorem ladder_descends_software :
    ∃ wire, decodeCaps [0,7,0,0xFF] = .ok wire ∧
      let rungs := ladder ⟨7,0,true,false,false⟩ (.fromWire wire) .game .oss
      rungs = [.hw .av1,.hw .h264,.swH264] ∧ descent rungs 1 = some (.hw .h264) ∧
      descent rungs 2 = some .swH264 ∧ descent rungs 3 = none := by
  have offered : encodeCaps (CodecCapabilities.mk 0 7 false false false).toWireOffer = .ok [0,7,0,0xFF] := by decide
  obtain ⟨wire,decoded,walk,-,-,rungs⟩ := ladder_descends ⟨7,0,true,false,false⟩ _ .game .oss _ offered
  have same : wire = ⟨0,7,false,false,false,none⟩ := by
    have direct : decodeCaps [0,7,0,0xFF] = .ok ⟨0,7,false,false,false,none⟩ := by decide
    rw [direct,Except.ok.injEq] at decoded
    exact decoded.symm
  subst same
  have listed : ladder ⟨7,0,true,false,false⟩ ⟨0,7,false,false,false⟩ .game .oss = [.hw .av1,.hw .h264,.swH264] := by
    decide
  have last := walk 2
  refine ⟨_,decoded,listed,(walk 1).trans (congrArg (·[1]?) listed),last.trans (congrArg (·[2]?) listed),?_⟩
  exact ((rungs 2 _ (last.trans (congrArg (·[2]?) listed))).2.2 rfl).2.2

section Browser

def browserCaps : CodecCapabilities := ⟨0,decodeBit codecDiscH264,false,false,true⟩

theorem buildBrowserOffer_ok : ∃ offer, buildBrowserOffer = .ok offer ∧ decodeCaps offer = .ok browserCaps.toWireOffer :=
  ⟨[0,1,4,0xFF],by decide,by decide⟩

/-- The browser decodes H.264 and nothing else. -/
theorem browser_canDecode (choice : CodecChoice) :
    browserCaps.canDecode choice.discriminant = true ↔ choice.codec = .h264 := by
  obtain ⟨codec,hardware,rateLimited⟩ := choice
  cases codec <;> simp only [CodecChoice.discriminant] <;> decide

/-- Both sides look at the same bit of the mask. -/
theorem canHwEncode_h264 (caps : CodecCapabilities) :
    caps.hwEncodeMask &&& decodeBit codecDiscH264 ≠ 0 ↔ caps.canHwEncode codecDiscH264 = true := by
  have all : ∀ n : Fin 256, UInt8.ofNat n.val &&& decodeBit codecDiscH264 ≠ 0 ↔
      ((UInt8.ofNat n.val >>> codecDiscH264) &&& 1 == 1) = true := by decide +kernel
  have here := all ⟨caps.hwEncodeMask.toNat,caps.hwEncodeMask.toNat_lt⟩
  simp only [UInt8.ofNat_toNat] at here
  exact here

variable {host : CodecCapabilities} {hostCaps : Bytes}

theorem selectCodec_ok_iff (offered : encodeCaps host.toWireOffer = .ok hostCaps) (selection : CodecSelection) :
    selectCodec hostCaps = .ok selection ↔
      (host.canHwEncode codecDiscH264 = true ∨ host.swH264EncodeAvailable = true) ∧ selection = ⟨codecDiscH264,[0,1,4,0]⟩ := by
  have answer : bridgeEncodeCaps 0 (decodeBit codecDiscH264) false false true codecDiscH264 = .ok [0,1,4,0] := by decide
  have path : (host.toWireOffer.hwEncodeMask &&& decodeBit codecDiscH264 ≠ 0 ∨ host.toWireOffer.swH264EncodeAvailable = true) ↔
      (host.canHwEncode codecDiscH264 = true ∨ host.swH264EncodeAvailable = true) :=
    or_congr (canHwEncode_h264 host) Iff.rfl
  simp only [selectCodec,decodeCaps_offer offered,path,answer]
  split_ifs with able
  · rw [Except.ok.injEq,and_iff_right able]
    exact eq_comm
  · simp only [able,false_and]

variable (host) in
theorem mem_ladder_browser (mode : ContentMode) (flavor : BuildFlavor) (rung : CodecChoice) :
    rung ∈ ladder host browserCaps mode flavor ↔
      (rung = .hw .h264 ∧ host.canHwEncode codecDiscH264 = true) ∨
      (rung = .swH264 ∧ host.swH264EncodeAvailable = true ∧ flavor = .oss ∧ mode ≠ .work) := by
  rw [mem_ladder_iff,browser_canDecode]
  constructor
  · rintro ⟨member,h264,hard,soft⟩
    obtain ⟨_,_,software,limited⟩ := mem_candidateRungs mode flavor member
    obtain ⟨codec,hardware,rateLimited⟩ := rung
    subst h264
    cases hardware with
    | true =>
      have free : rateLimited = false := by
        cases rateLimited with
        | true => exact absurd (limited rfl) (by decide)
        | false => rfl
      exact .inl ⟨by rw [free]; rfl,(hard rfl).1⟩
    | false => exact .inr ⟨(software rfl).1,soft rfl,(software rfl).2⟩
  · rintro (⟨rfl,able⟩ | ⟨rfl,able,rfl,idle⟩)
    · refine ⟨by cases flavor <;> cases mode <;> decide,rfl,fun _ => ⟨able,fun other => ?_⟩,nofun⟩
      exact absurd other.2 (by decide)
    · exact ⟨by cases mode <;> first | decide | exact absurd rfl idle,rfl,nofun,fun _ => able⟩

variable (host) in
theorem select_browser_none (mode : ContentMode) (flavor : BuildFlavor) :
    select (ladder host browserCaps mode flavor) = none ↔ host.canHwEncode codecDiscH264 = false ∧
      (host.swH264EncodeAvailable = true → flavor = .commercial ∨ mode = .work) := by
  rw [select,List.head?_eq_none_iff,List.eq_nil_iff_forall_not_mem]
  simp only [mem_ladder_browser]
  constructor
  · intro empty
    refine ⟨Bool.eq_false_iff.mpr fun able => empty _ (.inl ⟨rfl,able⟩),fun able => ?_⟩
    cases flavor with
    | commercial => exact .inl rfl
    | oss =>
      by_contra other
      exact empty _ (.inr ⟨rfl,able,rfl,fun work => other (.inr work)⟩)
  · rintro ⟨unable,barred⟩ rung (⟨_,able⟩ | ⟨_,able,rfl,idle⟩)
    · rw [unable] at able
      cases able
    · rcases barred able with commercial | work
      · cases commercial
      · exact idle work

end Browser

/-- The host and the browser each choose on their own from the other's offer. All the host has for a
browser is H.264, and whenever the host has a codec, the browser has selected that one and says so
in its answer. The browser selects one that the host has not exactly when the host could only
encode in software, for work or in a commercial build. -/
theorem browser_negotiation_agrees (host : CodecCapabilities) (mode : ContentMode) (flavor : BuildFlavor) (hostCaps : Bytes)
    (offered : encodeCaps host.toWireOffer = .ok hostCaps) :
    ∃ offer browser, buildBrowserOffer = .ok offer ∧ decodeCaps offer = .ok browser ∧
      let rungs := ladder host (.fromWire browser) mode flavor
      (∀ rung ∈ rungs, rung.codec = .h264) ∧
      (∀ selection, selectCodec hostCaps = .ok selection → ∃ answer, decodeCaps selection.answerBytes = .ok answer ∧
        answer.selectedCodec = some selection.codec ∧ CodecCapabilities.fromWire answer = .fromWire browser) ∧
      (∀ rung, select rungs = some rung → ∃ selection, selectCodec hostCaps = .ok selection ∧
        selection.codec = rung.discriminant) ∧
      ((select rungs = none ∧ ∃ selection, selectCodec hostCaps = .ok selection) ↔
        host.canHwEncode codecDiscH264 = false ∧ host.swH264EncodeAvailable = true ∧
          (flavor = .commercial ∨ mode = .work)) := by
  obtain ⟨offer,built,decoded⟩ := buildBrowserOffer_ok
  refine ⟨offer,_,built,decoded,?_⟩
  have same : CodecCapabilities.fromWire browserCaps.toWireOffer = browserCaps := rfl
  rw [same]
  refine ⟨fun rung member => ?_,fun selection picked => ?_,fun rung top => ?_,?_⟩
  · rcases (mem_ladder_browser host mode flavor rung).mp member with ⟨rfl,_⟩ | ⟨rfl,_⟩ <;> rfl
  · rw [selectCodec_ok_iff offered] at picked
    obtain ⟨_,rfl⟩ := picked
    exact ⟨⟨0,1,false,false,true,some 0⟩,by decide,rfl,rfl⟩
  · have member := (mem_ladder_browser host mode flavor rung).mp (List.mem_of_head? top)
    simp only [selectCodec_ok_iff offered]
    rcases member with ⟨rfl,able⟩ | ⟨rfl,able,_⟩
    · exact ⟨_,⟨.inl able,rfl⟩,rfl⟩
    · exact ⟨_,⟨.inr able,rfl⟩,rfl⟩
  · simp only [selectCodec_ok_iff offered,select_browser_none,exists_and_left,exists_eq,and_true]
    constructor
    · rintro ⟨⟨unable,barred⟩,able⟩
      have software := able.resolve_left (by simp [unable])
      exact ⟨unable,software,barred software⟩
    · rintro ⟨unable,software,barred⟩
      exact ⟨⟨unable,fun _ => barred⟩,.inr software⟩

/-- A host without an encoder chip, at work. -/
theorem browser_negotiation_agrees_work :
    ∃ browser, select (ladder ⟨0,0,true,false,false⟩ (.fromWire browser) .work .oss) = none ∧
      ∃ selection, selectCodec [0,0,1,0xFF] = .ok selection := by
  have offered : encodeCaps (CodecCapabilities.mk 0 0 true false false).toWireOffer = .ok [0,0,1,0xFF] := by decide
  obtain ⟨_,browser,_,_,_,_,_,differ⟩ := browser_negotiation_agrees ⟨0,0,true,false,false⟩ .work .oss _ offered
  exact ⟨browser,differ.mpr ⟨by decide,rfl,.inr rfl⟩⟩

end CodecNegotiator

end Streamhaul
