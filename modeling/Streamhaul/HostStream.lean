import Streamhaul.Delimited
import Streamhaul.WebReassembler

/-! The video stream of the WebRTC host, from the frame source through the loop that sends its frames
to the browser that puts them together again. The data channel may close at any send, and may lose,
repeat and reorder what it was given. -/
namespace Streamhaul

abbrev AccessUnit := FrameType × Bytes

class VideoFrameSource (α : Type) where
  nextFrame : α → Except HostError AccessUnit × α
  requestKeyframe : α → α

/-- The host's end of a data channel: what it was given so far, and whether it takes one more. -/
structure VideoChannel where
  wire : List Bytes
  accepts : Nat → Bool

namespace VideoChannel

def send (channel : VideoChannel) (msg : Bytes) : Bool × VideoChannel :=
  if channel.accepts channel.wire.length then (true,{ channel with wire := channel.wire ++ [msg] }) else (false,channel)

/-- Sends until one fails. -/
def sendAll (channel : VideoChannel) : List Bytes → Bool × VideoChannel
  | [] => (true,channel)
  | frag :: rest =>
    match channel.send frag with
    | (false,channel) => (false,channel)
    | (true,channel) => sendAll channel rest

end VideoChannel

inductive FrameStep where
  | sent (numFrags : UInt16)
  | skipped
  | peerClosed
  | failed (e : HostError)

structure StreamConfig where
  framesToSend : UInt64
  perUs : UInt64
  maxFragmentBytes : Nat

namespace HostStream

open Machine VideoFrameSource

section Loop

variable {α : Type} [VideoFrameSource α] (cfg : StreamConfig) {unit : AccessUnit}

def sendOneFrame (channel : VideoChannel) (source : α) (sentIndex : UInt64) (sequence : UInt16) :
    FrameStep × VideoChannel × α :=
  match nextFrame source with
  | (.error e,source) => (.failed e,channel,source)
  | (.ok (frameType,payload),source) =>
    let frameId := (sentIndex &&& maxFrameId).toUInt32
    let tsUs := sentIndex * cfg.perUs
    match buildShpVideoFragments sequence frameId tsUs frameType payload cfg.maxFragmentBytes with
    | .error _ => (.skipped,channel,requestKeyframe source)
    | .ok fragments =>
      if u16Max < fragments.length then (.failed ⟨"fragment count exceeded u16 (invariant)",none⟩,channel,source)
      else
        match channel.sendAll fragments with
        | (false,channel) => (.peerClosed,channel,source)
        | (true,channel) => (.sent (UInt16.ofNat fragments.length),channel,source)

structure SendLoop (α : Type) where
  channel : VideoChannel
  source : α
  sent : Nat
  sequence : UInt16
  ended : Option (Except HostError Unit)

def start (source : α) (accepts : Nat → Bool) : SendLoop α := ⟨⟨[],accepts⟩,source,0,0,none⟩

/-- One round of the loop. Where input shares the channel, it is drained after a frame, and finds out
whether the peer has hung up; the loop of a host with its own input channel is the one without
hangups. -/
def tick (loop : SendLoop α) (hangup : Bool) : Option FrameStep × SendLoop α :=
  match loop.ended with
  | some _ => (none,loop)
  | none =>
    if loop.sent < cfg.framesToSend.toNat then
      match sendOneFrame cfg loop.channel loop.source (UInt64.ofNat loop.sent) loop.sequence with
      | (.sent numFrags,channel,source) =>
        (some (.sent numFrags),
          { channel := channel, source := source, sent := satAdd u64Max loop.sent 1,
            sequence := loop.sequence + numFrags, ended := if hangup then some (.ok ()) else none })
      | (.skipped,channel,source) => (some .skipped,{ loop with channel := channel, source := source })
      | (.peerClosed,channel,source) =>
        (some .peerClosed,{ loop with channel := channel, source := source, ended := some (.ok ()) })
      | (.failed e,channel,source) =>
        (some (.failed e),{ loop with channel := channel, source := source, ended := some (.error e) })
    else (none,{ loop with ended := some (.ok ()) })

/-- A frame fits when 255 fragments can carry it. -/
def fits (unit : AccessUnit) : Bool := unit.2.length ≤ 255 * hostChunkSize cfg.maxFragmentBytes

/-- The frames of so many pulls: up to the first failure, with a key frame asked for after each that does
not fit. -/
def offered : Nat → α → List AccessUnit
  | 0, _ => []
  | n + 1, source =>
    match nextFrame source with
    | (.error _,_) => []
    | (.ok unit,source) => unit :: offered n (if fits cfg unit then source else requestKeyframe source)

theorem offered_take (n m : Nat) (source : α) : (offered cfg n source).take m = offered cfg (min m n) source := by
  induction n generalizing m source with
  | zero => simp [offered]
  | succ n ih =>
    cases m with
    | zero => simp [offered]
    | succ m =>
      rw [Nat.succ_min_succ,offered,offered]
      rcases nextFrame source with ⟨e | unit,after⟩
      · rfl
      · rw [List.take_succ_cons,ih]

def frameIdOf (k : Nat) : UInt32 := (UInt64.ofNat k &&& maxFrameId).toUInt32

def totalOf (unit : AccessUnit) : Nat := hostTotal unit.2 (hostChunkSize cfg.maxFragmentBytes)

def unitFragments (k offset : Nat) (unit : AccessUnit) : List Bytes :=
  (List.range (totalOf cfg unit)).map
    (hostDatagram (UInt16.ofNat offset) (frameIdOf k) (UInt64.ofNat k * cfg.perUs) unit.1 unit.2
      (hostChunkSize cfg.maxFragmentBytes) (totalOf cfg unit))

def streamWire : Nat → Nat → List AccessUnit → List Bytes
  | _, _, [] => []
  | k, offset, unit :: rest => unitFragments cfg k offset unit ++ streamWire (k + 1) (offset + totalOf cfg unit) rest

@[simp] theorem length_unitFragments (k offset : Nat) (unit : AccessUnit) :
    (unitFragments cfg k offset unit).length = totalOf cfg unit := by
  simp [unitFragments]

theorem totalOf_pos (unit : AccessUnit) : 0 < totalOf cfg unit := hostTotal_pos _ _

theorem totalOf_le (fit : fits cfg unit = true) : totalOf cfg unit ≤ 255 :=
  (hostTotal_le_iff _ (hostChunkSize_pos _)).mpr (of_decide_eq_true fit)

theorem toNat_frameIdOf (k : Nat) : (frameIdOf k).toNat = k % 2 ^ 24 := by
  have mask : (UInt64.ofNat k &&& maxFrameId).toNat = k % 2 ^ 24 := by
    rw [UInt64.toNat_and]
    have all : maxFrameId.toNat = 2 ^ 24 - 1 := rfl
    rw [all,Nat.and_two_pow_sub_one_eq_mod,UInt64.toNat_ofNat']
    exact Nat.mod_mod_of_dvd k ⟨2 ^ 40,by norm_num⟩
  rw [frameIdOf,UInt64.toNat_toUInt32,mask]
  omega

theorem frameIdOf_le (k : Nat) : (frameIdOf k).toUInt64 ≤ maxFrameId := by
  rw [UInt64.le_iff_toNat_le,UInt32.toNat_toUInt64,toNat_frameIdOf]
  have all : maxFrameId.toNat = 2 ^ 24 - 1 := rfl
  omega

theorem build_fits (k offset : Nat) (fit : fits cfg unit = true) :
    buildShpVideoFragments (UInt16.ofNat offset) (frameIdOf k) (UInt64.ofNat k * cfg.perUs) unit.1 unit.2
      cfg.maxFragmentBytes = .ok (unitFragments cfg k offset unit) :=
  (buildShpVideoFragments_ok_iff _ _ _ _ _ _ _).mpr ⟨⟨of_decide_eq_true fit,frameIdOf_le k⟩,rfl⟩

theorem build_long (k offset : Nat) (long : fits cfg unit = false) :
    ∃ e, buildShpVideoFragments (UInt16.ofNat offset) (frameIdOf k) (UInt64.ofNat k * cfg.perUs) unit.1 unit.2
      cfg.maxFragmentBytes = .error e := by
  cases built : buildShpVideoFragments (UInt16.ofNat offset) (frameIdOf k) (UInt64.ofNat k * cfg.perUs) unit.1 unit.2
      cfg.maxFragmentBytes with
  | error e => exact ⟨e,rfl⟩
  | ok frags =>
    have short := ((buildShpVideoFragments_ok_iff _ _ _ _ _ _ _).mp built).1.1
    exact absurd (decide_eq_true short) (Bool.eq_false_iff.mp long)

/-- What was sent is a beginning of what was to be sent, all of it when no send failed. -/
theorem sendAll_spec (channel : VideoChannel) (frags : List Bytes) :
    ∃ taken missing, frags = taken ++ missing ∧ (channel.sendAll frags).2 = { channel with wire := channel.wire ++ taken } ∧
      ((channel.sendAll frags).1 = true ↔ missing = []) ∧ ((∀ n, channel.accepts n = true) → missing = []) := by
  induction frags generalizing channel with
  | nil => exact ⟨[],[],rfl,by simp [VideoChannel.sendAll],by simp [VideoChannel.sendAll],fun _ => rfl⟩
  | cons frag rest ih =>
    by_cases open_ : channel.accepts channel.wire.length = true
    · obtain ⟨taken,missing,rfl,wire,whole,free⟩ := ih { channel with wire := channel.wire ++ [frag] }
      refine ⟨frag :: taken,missing,rfl,?_,?_,free⟩
      · simp [VideoChannel.sendAll,VideoChannel.send,open_,wire]
      · simp [VideoChannel.sendAll,VideoChannel.send,open_,whole]
    · refine ⟨[],frag :: rest,rfl,?_,?_,fun free => absurd (free _) open_⟩
      · simp [VideoChannel.sendAll,VideoChannel.send,open_]
      · simp [VideoChannel.sendAll,VideoChannel.send,open_]

/-- A loop that goes on: the next sequence number counts the datagrams it has sent. -/
structure Running (loop : SendLoop α) : Prop where
  going : loop.ended = none
  bounded : loop.sent ≤ cfg.framesToSend.toNat
  numbered : loop.sequence = UInt16.ofNat loop.channel.wire.length

def afterUnit (loop : SendLoop α) (unit : AccessUnit) (source : α) (ended : Option (Except HostError Unit)) :
    SendLoop α where
  channel := ⟨loop.channel.wire ++ unitFragments cfg loop.sent loop.channel.wire.length unit,loop.channel.accepts⟩
  source := source
  sent := loop.sent + 1
  sequence := UInt16.ofNat (loop.channel.wire.length + totalOf cfg unit)
  ended := ended

/-- What a round does. -/
inductive Ticked (loop : SendLoop α) (hangup : Bool) : SendLoop α → Prop
  | finished (all : cfg.framesToSend.toNat ≤ loop.sent) :
      Ticked loop hangup { loop with ended := some (.ok ()) }
  | failed (e : HostError) (source : α) (more : loop.sent < cfg.framesToSend.toNat)
      (pulled : nextFrame loop.source = (.error e,source)) :
      Ticked loop hangup { loop with source := source, ended := some (.error e) }
  | skipped (unit : AccessUnit) (source : α) (more : loop.sent < cfg.framesToSend.toNat)
      (pulled : nextFrame loop.source = (.ok unit,source)) (long : fits cfg unit = false) :
      Ticked loop hangup { loop with source := requestKeyframe source }
  | closed (unit : AccessUnit) (source : α) (taken missing : List Bytes) (more : loop.sent < cfg.framesToSend.toNat)
      (pulled : nextFrame loop.source = (.ok unit,source)) (fit : fits cfg unit = true)
      (split : unitFragments cfg loop.sent loop.channel.wire.length unit = taken ++ missing) (cut : missing ≠ [])
      (blocked : ¬∀ n, loop.channel.accepts n = true) :
      Ticked loop hangup { loop with
        channel := { loop.channel with wire := loop.channel.wire ++ taken }, source := source, ended := some (.ok ()) }
  | sent (unit : AccessUnit) (source : α) (more : loop.sent < cfg.framesToSend.toNat)
      (pulled : nextFrame loop.source = (.ok unit,source)) (fit : fits cfg unit = true) :
      Ticked loop hangup (afterUnit cfg loop unit source (if hangup then some (.ok ()) else none))

variable {loop : SendLoop α}

variable {cfg} in
theorem tick_ticked (running : Running cfg loop) (hangup : Bool) :
    Ticked cfg loop hangup (tick cfg loop hangup).2 := by
  obtain ⟨channel,source,sent,sequence,ended⟩ := loop
  obtain ⟨going,bounded,numbered⟩ := running
  simp only at going bounded numbered
  subst going numbered
  by_cases more : sent < cfg.framesToSend.toNat
  · rcases pulled : nextFrame source with ⟨e | unit,after⟩
    · simp only [tick,sendOneFrame,more,pulled,if_true]
      exact .failed e after more pulled
    · cases fit : fits cfg unit with
      | false =>
        obtain ⟨e,long⟩ := build_long cfg sent channel.wire.length fit
        rw [frameIdOf] at long
        simp only [tick,sendOneFrame,more,pulled,long,if_true]
        exact .skipped unit after more pulled fit
      | true =>
        have built := build_fits cfg sent channel.wire.length fit
        have few : ¬u16Max < (unitFragments cfg sent channel.wire.length unit).length := by
          have := totalOf_le cfg fit
          simp only [length_unitFragments,u16Max]
          omega
        obtain ⟨taken,missing,split,wire,whole,free⟩ :=
          sendAll_spec channel (unitFragments cfg sent channel.wire.length unit)
        rw [frameIdOf] at built
        simp only [tick,sendOneFrame,more,pulled,built,few,if_true,if_false]
        rcases outcome : channel.sendAll (unitFragments cfg sent channel.wire.length unit) with ⟨_ | _,result⟩
        · simp only [outcome] at wire whole
          subst wire
          have cut : missing ≠ [] := fun none => absurd (whole.mpr none) Bool.false_ne_true
          exact .closed unit after taken missing more pulled fit split cut (fun open_ => cut (free open_))
        · simp only [outcome] at wire whole
          have all := whole.mp trivial
          subst all
          rw [List.append_nil] at split
          subst wire
          have small : satAdd u64Max sent 1 = sent + 1 := satAdd_of_le (by
            have := cfg.framesToSend.toNat_lt
            simp only [u64Max]
            omega)
          have next : UInt16.ofNat channel.wire.length + UInt16.ofNat (unitFragments cfg sent channel.wire.length unit).length =
              UInt16.ofNat (channel.wire.length + totalOf cfg unit) := by
            rw [length_unitFragments,UInt16.ofNat_add]
          dsimp only
          rw [small,next,← split]
          exact .sent unit after more pulled fit
  · simp only [tick,more,if_false]
    exact .finished (Nat.not_lt.mp more)

variable {cfg} in
theorem tick_ended {result : Except HostError Unit} (ended : loop.ended = some result) (hangup : Bool) :
    tick cfg loop hangup = (none,loop) := by
  rw [tick,ended]

theorem final_ended {result : Except HostError Unit} (ended : loop.ended = some result)
    (hangups : List Bool) : final (tick cfg) loop hangups = loop := by
  induction hangups with
  | nil => rfl
  | cons hangup rest ih => rw [final,tick_ended ended,ih]

/-- Nothing, or the beginning of one more frame. -/
def Cut (k offset : Nat) (part : List Bytes) : Prop :=
  part = [] ∨ ∃ unit missing, fits cfg unit = true ∧ unitFragments cfg k offset unit = part ++ missing ∧ missing ≠ [] ∧
    k < cfg.framesToSend.toNat

/-- What a run has sent: whole frames in the order of the source, and at most one cut short. -/
structure Sends (loop : SendLoop α) (hangups : List Bool) (after : SendLoop α) (units : List AccessUnit)
    (part : List Bytes) : Prop where
  wire : after.channel.wire =
    loop.channel.wire ++ (streamWire cfg loop.sent loop.channel.wire.length units ++ part)
  sent : after.sent = loop.sent + units.length
  bounded : after.sent ≤ cfg.framesToSend.toNat
  fit : ∀ unit ∈ units, fits cfg unit = true
  ordered : units <+: (offered cfg hangups.length loop.source).filter (fits cfg)
  cut : Cut cfg after.sent (loop.channel.wire.length + (streamWire cfg loop.sent loop.channel.wire.length units).length) part
  complete : (∀ n, loop.channel.accepts n = true) → (∀ hangup ∈ hangups, hangup = false) →
    units = ((offered cfg hangups.length loop.source).filter (fits cfg)).take (cfg.framesToSend.toNat - loop.sent)

theorem length_streamWire_cons (k offset : Nat) (unit : AccessUnit) (rest : List AccessUnit) :
    (streamWire cfg k offset (unit :: rest)).length =
      totalOf cfg unit + (streamWire cfg (k + 1) (offset + totalOf cfg unit) rest).length := by
  rw [streamWire,List.length_append,length_unitFragments]

theorem sends_nothing {loop after : SendLoop α} {hangups : List Bool} (bounded : loop.sent ≤ cfg.framesToSend.toNat)
    (wire : after.channel.wire = loop.channel.wire) (sent : after.sent = loop.sent)
    (none_left : ((offered cfg hangups.length loop.source).filter (fits cfg)).take (cfg.framesToSend.toNat - loop.sent) = []) :
    Sends cfg loop hangups after [] [] where
  wire := by simp [streamWire,wire]
  sent := sent
  bounded := by omega
  fit := List.forall_mem_nil _
  ordered := List.nil_prefix
  cut := .inl rfl
  complete _ _ := none_left.symm

variable {cfg} in
theorem sends_run (running : Running cfg loop) (hangups : List Bool) :
    ∃ units part, Sends cfg loop hangups (final (tick cfg) loop hangups) units part := by
  induction hangups generalizing loop with
  | nil => exact ⟨[],[],sends_nothing cfg running.bounded rfl rfl (by simp [offered])⟩
  | cons hangup rest ih =>
    have ticked := tick_ticked running hangup
    rw [final]
    generalize (tick cfg loop hangup).2 = next at ticked
    cases ticked with
    | finished all =>
      rw [final_ended cfg rfl]
      exact ⟨[],[],sends_nothing cfg running.bounded rfl rfl (by simp [Nat.sub_eq_zero_of_le all])⟩
    | failed e source more pulled =>
      rw [final_ended cfg rfl]
      exact ⟨[],[],sends_nothing cfg running.bounded rfl rfl (by simp [offered,pulled])⟩
    | skipped unit source more pulled long =>
      have going : Running cfg { loop with source := requestKeyframe source } :=
        ⟨running.going,running.bounded,running.numbered⟩
      obtain ⟨units,part,sends⟩ := ih going
      have pulls : (offered cfg (hangup :: rest).length loop.source).filter (fits cfg) =
          (offered cfg rest.length (requestKeyframe source)).filter (fits cfg) := by
        simp [offered,pulled,long]
      refine ⟨units,part,sends.wire,sends.sent,sends.bounded,sends.fit,?_,sends.cut,?_⟩
      · rw [pulls]
        exact sends.ordered
      · intro open_ calm
        rw [pulls]
        exact sends.complete open_ (List.forall_mem_cons.mp calm).2
    | closed unit source taken missing more pulled fit split cut blocked =>
      rw [final_ended cfg rfl]
      refine ⟨[],taken,?_,rfl,running.bounded,List.forall_mem_nil _,List.nil_prefix,?_,fun open_ => absurd open_ blocked⟩
      · simp [streamWire]
      · exact .inr ⟨unit,missing,fit,split,cut,more⟩
    | sent unit source more pulled fit =>
      have pulls : (offered cfg (hangup :: rest).length loop.source).filter (fits cfg) =
          unit :: (offered cfg rest.length source).filter (fits cfg) := by
        simp [offered,pulled,fit]
      have room : cfg.framesToSend.toNat - loop.sent = (cfg.framesToSend.toNat - (loop.sent + 1)) + 1 := by omega
      cases hangup with
      | true =>
        rw [final_ended cfg rfl]
        refine ⟨[unit],[],?_,rfl,more,by simpa using fit,?_,.inl rfl,fun _ calm => ?_⟩
        · simp [streamWire,afterUnit]
        · rw [pulls]
          exact ⟨_,rfl⟩
        · exact absurd (calm true List.mem_cons_self) (by decide)
      | false =>
        rw [if_neg Bool.false_ne_true]
        have going : Running cfg (afterUnit cfg loop unit source none) := ⟨rfl,more,by simp [afterUnit]⟩
        obtain ⟨units,part,sends⟩ := ih going
        refine ⟨unit :: units,part,?_,?_,sends.bounded,List.forall_mem_cons.mpr ⟨fit,sends.fit⟩,?_,?_,?_⟩
        · rw [sends.wire]
          simp [streamWire,afterUnit]
        · rw [sends.sent]
          simp only [afterUnit,List.length_cons]
          omega
        · rw [pulls]
          exact (List.prefix_cons_inj unit).mpr sends.ordered
        · have cut := sends.cut
          simp only [afterUnit,List.length_append,length_unitFragments,Nat.add_assoc] at cut
          rw [length_streamWire_cons]
          exact cut
        · intro open_ calm
          rw [pulls,room,List.take_succ_cons]
          exact congrArg (unit :: ·) (sends.complete open_ (List.forall_mem_cons.mp calm).2)

end Loop

section Browser

variable (cfg : StreamConfig)

def shown (unit : AccessUnit) : CompleteAccessUnit := ⟨unit.1.toBits.toNat,Codec.h264.toBits.toNat,unit.2⟩

def viewed (datagrams : List Bytes) : List CompleteAccessUnit :=
  (SplitFrame.answers .idle (datagrams.filterMap parseVideoFrame)).filterMap id

def fragmentOf (k : Nat) (unit : AccessUnit) (i : Nat) : ParsedVideoFrame :=
  (hostFrame (frameIdOf k) unit.1 unit.2 (hostChunkSize cfg.maxFragmentBytes) (totalOf cfg unit)).fragment i
    (Chunks.chunk (hostChunkSize cfg.maxFragmentBytes) unit.2 i)

theorem pieces_flatten (unit : AccessUnit) :
    (Chunks.pieces (hostChunkSize cfg.maxFragmentBytes) unit.2 (totalOf cfg unit)).flatten = unit.2 := by
  apply Chunks.flatten_pieces
  exact (Chunks.length_le_count (hostChunkSize_pos _) unit.2).trans (Nat.mul_le_mul_right _ (le_max_left _ _))

variable {cfg} {datagram : Bytes} {k offset : Nat} {part : List Bytes} {r : VideoFragmentReassembler}
  {unit : AccessUnit} {units : List AccessUnit}

theorem parse_unitFragments (k offset : Nat) (fit : fits cfg unit = true) :
    (unitFragments cfg k offset unit).map parseVideoFrame =
      ((List.range (totalOf cfg unit)).map (fragmentOf cfg k unit)).map some := by
  apply List.ext_getElem
  · simp [unitFragments]
  · intro i inside _
    have here : i < totalOf cfg unit := by simpa [unitFragments] using inside
    simp only [unitFragments,List.getElem_map,List.getElem_range]
    exact parseVideoFrame_hostDatagram _ _ _ _ (frameIdOf_le k) (totalOf_le cfg fit) here

theorem answers_unit (r : VideoFragmentReassembler) (started : r.Started) (k : Nat) (fit : fits cfg unit = true) :
    SplitFrame.answers r ((List.range (totalOf cfg unit)).map (fragmentOf cfg k unit)) =
      List.replicate (totalOf cfg unit - 1) none ++ [some (shown unit)] := by
  have few := totalOf_le cfg fit
  have positive := totalOf_pos cfg unit
  have whole := pieces_flatten cfg unit
  have bytes : unit.2.length ≤ maxBufferedBytes := length_le_maxBufferedBytes (of_decide_eq_true fit)
  have count : (hostFrame (frameIdOf k) unit.1 unit.2 (hostChunkSize cfg.maxFragmentBytes) (totalOf cfg unit)).parts.length =
      totalOf cfg unit := Chunks.length_pieces _ _ _
  have delivered := SplitFrame.answers_fragments
    (f := hostFrame (frameIdOf k) unit.1 unit.2 (hostChunkSize cfg.maxFragmentBytes) (totalOf cfg unit))
    started (List.ne_nil_of_length_pos (positive.trans_eq count.symm)) (by rw [count,maxFragments]; omega)
    (by rw [hostFrame,whole]; exact bytes)
  rw [count,SplitFrame.unit,hostFrame,whole] at delivered
  rw [shown,← delivered]
  congr 1
  apply List.ext_getElem
  · simp [SplitFrame.remaining]
  · intro i inside _
    simp [SplitFrame.remaining,fragmentOf,hostFrame,Chunks.pieces]

theorem answers_append (r : VideoFragmentReassembler) (first second : List ParsedVideoFrame) :
    SplitFrame.answers r (first ++ second) =
      SplitFrame.answers r first ++ SplitFrame.answers (final VideoFragmentReassembler.push r first) second := by
  simp [SplitFrame.answers,trace_append]

theorem started_final (started : r.Started) (frames : List ParsedVideoFrame) :
    (final VideoFragmentReassembler.push r frames).Started :=
  final_invariant VideoFragmentReassembler.push (fun _ _ => True) VideoFragmentReassembler.Started
    (fun _ frame _ started => started.push frame) r frames started (fun _ _ => trivial)

theorem filterMap_silent {β : Type} (n : Nat) : (List.replicate n (none : Option β)).filterMap id = [] :=
  List.filterMap_replicate_of_none rfl

theorem filterMap_of_map {β γ : Type} {f : β → Option γ} {l : List β} {m : List γ} (parsed : l.map f = m.map some) :
    l.filterMap f = m := by
  have reduced := congrArg (List.filterMap id) parsed
  simpa [List.filterMap_map] using reduced

theorem answers_part (started : r.Started)
    (cut : Cut cfg k offset part) : (SplitFrame.answers r (part.filterMap parseVideoFrame)).filterMap id = [] := by
  rcases cut with rfl | ⟨unit,missing,fit,split,lost,_⟩
  · rfl
  · have parsed := parse_unitFragments k offset fit
    rw [split,List.map_append] at parsed
    obtain ⟨here,later,whole,first,second⟩ := List.map_eq_append_iff.mp parsed.symm
    have answered := answers_unit r started k fit
    rw [whole,answers_append] at answered
    have short : (SplitFrame.answers r here).length ≤
        (List.replicate (totalOf cfg unit - 1) (none : Option CompleteAccessUnit)).length := by
      have both := congrArg List.length whole
      have some_lost := List.length_pos_of_ne_nil lost
      have rest := congrArg List.length second
      simp only [List.length_map,List.length_append,List.length_range] at both rest
      simp only [SplitFrame.answers,List.length_map,length_trace,List.length_replicate]
      omega
    have silent : SplitFrame.answers r here <+: List.replicate (totalOf cfg unit - 1) none :=
      List.prefix_of_prefix_length_le ⟨_,answered⟩ (List.prefix_append _ _) short
    rw [filterMap_of_map first.symm,(List.prefix_replicate_iff.mp silent).2,filterMap_silent]

theorem Cut.tail {rest : List AccessUnit}
    (cut : Cut cfg (k + (unit :: rest).length) (offset + (streamWire cfg k offset (unit :: rest)).length) part) :
    Cut cfg (k + 1 + rest.length)
      (offset + totalOf cfg unit + (streamWire cfg (k + 1) (offset + totalOf cfg unit) rest).length) part := by
  rw [length_streamWire_cons,List.length_cons] at cut
  rwa [Nat.add_assoc k,Nat.add_comm 1,Nat.add_assoc offset]

theorem viewed_stream (fit : ∀ unit ∈ units, fits cfg unit = true) (started : r.Started)
    (cut : Cut cfg (k + units.length) (offset + (streamWire cfg k offset units).length) part) :
    (SplitFrame.answers r ((streamWire cfg k offset units ++ part).filterMap parseVideoFrame)).filterMap id =
      units.map shown := by
  induction units generalizing r k offset with
  | nil => exact answers_part started cut
  | cons unit rest ih =>
    obtain ⟨here,later⟩ := List.forall_mem_cons.mp fit
    have parsed := filterMap_of_map (parse_unitFragments k offset here)
    rw [streamWire,List.append_assoc,List.filterMap_append,parsed,answers_append,List.filterMap_append,
      answers_unit r started k here,ih later (started_final started _) cut.tail,List.filterMap_append,
      filterMap_silent]
    rfl

theorem sequence_hostDatagram (seq : UInt16) (frameId : UInt32) (ts : UInt64) (frameType : FrameType) (payload : Bytes)
    (size n i : Nat) : ∃ header, CommonHeader.decode
      ((hostDatagram seq frameId ts frameType payload size n i).take commonHeaderLen) = .ok header ∧
        header.sequence = seq + UInt16.ofNat i := by
  have front : (hostDatagram seq frameId ts frameType payload size n i).take commonHeaderLen =
      (hostCommon (seq + UInt16.ofNat i) ts (Chunks.chunk size payload i) (UInt8.ofNat i) (UInt8.ofNat n)).encode ++ [] := by
    rw [hostDatagram,List.append_assoc,List.take_left' (CommonHeader.length_encode _),List.append_nil]
  exact ⟨_,by rw [front,CommonHeader.decode_encode],rfl⟩

def Numbered (n : Nat) (datagram : Bytes) : Prop :=
  ∃ header, CommonHeader.decode (datagram.take commonHeaderLen) = .ok header ∧ header.sequence = UInt16.ofNat n

theorem numbered_unit {k offset i : Nat}
    (here : (unitFragments cfg k offset unit)[i]? = some datagram) : Numbered (offset + i) datagram := by
  rw [unitFragments,List.getElem?_map,Option.map_eq_some_iff] at here
  obtain ⟨j,found,rfl⟩ := here
  obtain ⟨_,rfl⟩ := List.getElem?_eq_some_iff.mp found
  obtain ⟨header,decoded,sequence⟩ := sequence_hostDatagram (UInt16.ofNat offset) (frameIdOf k)
    (UInt64.ofNat k * cfg.perUs) unit.1
    unit.2 (hostChunkSize cfg.maxFragmentBytes) (totalOf cfg unit) i
  rw [List.getElem_range]
  exact ⟨header,decoded,by rw [sequence,UInt16.ofNat_add]⟩

theorem numbered_stream {k offset i : Nat}
    (cut : Cut cfg (k + units.length) (offset + (streamWire cfg k offset units).length) part)
    (here : (streamWire cfg k offset units ++ part)[i]? = some datagram) : Numbered (offset + i) datagram := by
  induction units generalizing k offset i with
  | nil =>
    rcases cut with rfl | ⟨unit,missing,_,split,_⟩
    · cases here
    · rw [streamWire,List.nil_append] at here
      have inside := (List.getElem?_eq_some_iff.mp here).1
      have there : (unitFragments cfg k offset unit)[i]? = some datagram := by
        have same : unitFragments cfg k offset unit = part ++ missing := split
        rw [same,List.getElem?_append_left inside,here]
      exact numbered_unit there
  | cons unit rest ih =>
    rw [streamWire,List.append_assoc] at here
    by_cases first : i < totalOf cfg unit
    · rw [List.getElem?_append_left (by simpa using first)] at here
      exact numbered_unit here
    · rw [List.getElem?_append_right (by simpa using first),length_unitFragments] at here
      have later := ih cut.tail here
      rwa [show offset + totalOf cfg unit + (i - totalOf cfg unit) = offset + i by omega] at later

variable (cfg) in
/-- A fragment of a frame on the wire; the last one is missing when the frame was cut short. -/
def Carried (units : List AccessUnit) (lost : Option AccessUnit) (p : ParsedVideoFrame) : Prop :=
  ∃ k unit i, p = fragmentOf cfg k unit i ∧ i < totalOf cfg unit ∧ fits cfg unit = true ∧ k < cfg.framesToSend.toNat ∧
    (units[k]? = some unit ∨ k = units.length ∧ lost = some unit ∧ i + 1 < totalOf cfg unit)

theorem parse_mem_unit (fit : fits cfg unit = true) {i : Nat}
    (here : (unitFragments cfg k offset unit)[i]? = some datagram) :
    parseVideoFrame datagram = some (fragmentOf cfg k unit i) ∧ i < totalOf cfg unit := by
  have inside : i < totalOf cfg unit := by simpa using (List.getElem?_eq_some_iff.mp here).1
  have parsed := congrArg (·[i]?) (parse_unitFragments k offset fit)
  simp only [List.getElem?_map,here,List.getElem?_range inside,Option.map_some] at parsed
  exact ⟨Option.some.inj parsed,inside⟩

theorem parse_mem_stream (fit : ∀ unit ∈ units, fits cfg unit = true)
    (here : datagram ∈ streamWire cfg k offset units) :
    ∃ j unit i, units[j]? = some unit ∧ i < totalOf cfg unit ∧
      parseVideoFrame datagram = some (fragmentOf cfg (k + j) unit i) := by
  induction units generalizing k offset with
  | nil => cases here
  | cons unit rest ih =>
    obtain ⟨first,later⟩ := List.forall_mem_cons.mp fit
    rcases List.mem_append.mp here with now | then_
    · obtain ⟨i,found⟩ := List.mem_iff_getElem?.mp now
      obtain ⟨parsed,inside⟩ := parse_mem_unit first found
      exact ⟨0,unit,i,rfl,inside,parsed⟩
    · obtain ⟨j,other,i,found,inside,parsed⟩ := ih later then_
      refine ⟨j + 1,other,i,found,inside,?_⟩
      rwa [Nat.add_assoc,Nat.add_comm 1] at parsed

theorem carried_wire (fit : ∀ unit ∈ units, fits cfg unit = true) (bounded : units.length ≤ cfg.framesToSend.toNat)
    (cut : Cut cfg units.length (streamWire cfg 0 0 units).length part) :
    ∃ lost, ∀ datagram ∈ streamWire cfg 0 0 units ++ part, ∃ p, parseVideoFrame datagram = some p ∧
      Carried cfg units lost p := by
  have whole : ∀ lost, ∀ datagram ∈ streamWire cfg 0 0 units, ∃ p, parseVideoFrame datagram = some p ∧
      Carried cfg units lost p := by
    intro lost datagram here
    obtain ⟨j,unit,i,found,inside,parsed⟩ := parse_mem_stream fit here
    have index := (List.getElem?_eq_some_iff.mp found).1
    rw [Nat.zero_add] at parsed
    exact ⟨_,parsed,j,unit,i,rfl,inside,fit unit (List.mem_of_getElem? found),index.trans_le bounded,.inl found⟩
  rcases cut with rfl | ⟨unit,missing,fit',split,lost,more⟩
  · refine ⟨none,?_⟩
    rw [List.append_nil]
    exact whole none
  · refine ⟨some unit,fun datagram here => ?_⟩
    rcases List.mem_append.mp here with sent | last
    · exact whole _ datagram sent
    · obtain ⟨i,found⟩ := List.mem_iff_getElem?.mp last
      have before := (List.getElem?_eq_some_iff.mp found).1
      have there : (unitFragments cfg units.length (streamWire cfg 0 0 units).length unit)[i]? = some datagram := by
        rw [split,List.getElem?_append_left before,found]
      obtain ⟨parsed,inside⟩ := parse_mem_unit fit' there
      have count := congrArg List.length split
      have gone := List.length_pos_of_ne_nil lost
      rw [length_unitFragments,List.length_append] at count
      exact ⟨_,parsed,units.length,unit,i,rfl,inside,fit',more,.inr ⟨rfl,rfl,by omega⟩⟩

section Authentic

variable {units : List AccessUnit} {lost : Option AccessUnit} {p : ParsedVideoFrame}

theorem frameIdOf_inj (few : cfg.framesToSend.toNat ≤ 2 ^ 24) {k k' : Nat} (small : k < cfg.framesToSend.toNat)
    (small' : k' < cfg.framesToSend.toNat) (same : (frameIdOf k).toNat = (frameIdOf k').toNat) : k = k' := by
  rw [toNat_frameIdOf,toNat_frameIdOf] at same
  omega

theorem carried_same (few : cfg.framesToSend.toNat ≤ 2 ^ 24) {k i : Nat} {unit : AccessUnit}
    (small : k < cfg.framesToSend.toNat) (placed : units[k]? = some unit ∨ k = units.length ∧ lost = some unit)
    (carried : Carried cfg units lost p) (id : p.header.frameId = (frameIdOf k).toNat)
    (index : p.header.fragIndex = i) :
    p = fragmentOf cfg k unit i ∧ (units[k]? = some unit ∨ i + 1 < totalOf cfg unit) := by
  obtain ⟨k',unit',i',rfl,inside,fit,small',there⟩ := carried
  obtain rfl := frameIdOf_inj few small' small id
  have at_i : i' = i := index
  subst at_i
  have same : unit' = unit := by
    rcases placed with found | ⟨last,gone⟩ <;> rcases there with found' | ⟨last',gone',_⟩
    · exact Option.some.inj (found'.symm.trans found)
    · rw [last',List.getElem?_eq_none le_rfl] at found
      cases found
    · rw [last,List.getElem?_eq_none le_rfl] at found'
      cases found'
    · exact Option.some.inj (gone'.symm.trans gone)
  subst same
  exact ⟨rfl,there.imp_right fun there => there.2.2⟩

theorem shown_assembled (few : cfg.framesToSend.toNat ≤ 2 ^ 24) {pushes : List ParsedVideoFrame}
    {out : CompleteAccessUnit} (carried : ∀ q ∈ pushes, Carried cfg units lost q)
    (here : Carried cfg units lost p) (assembled : VideoFragmentReassembler.Assembled pushes p out) :
    ∃ unit ∈ units, out = shown unit := by
  obtain ⟨k,unit,i,rfl,inside,fit,small,there⟩ := here
  obtain ⟨before,first,rest,rfl,count,fields,rfl⟩ := assembled
  have total : (fragmentOf cfg k unit i).header.totalFrags = totalOf cfg unit := Chunks.length_pieces _ _ _
  rw [total] at count
  have placed : units[k]? = some unit ∨ k = units.length ∧ lost = some unit := there.imp_right fun there => ⟨there.1,there.2.1⟩
  have each : ∀ j q, (first :: rest)[j]? = some q →
      q = fragmentOf cfg k unit j ∧ (units[k]? = some unit ∨ j + 1 < totalOf cfg unit) := by
    intro j q found
    obtain ⟨id,_,index,_⟩ := fields j q found
    exact carried_same few small placed (carried q (List.mem_append_right _ (List.mem_of_getElem? found))) id index
  have whole : first :: rest = (List.range (totalOf cfg unit)).map (fragmentOf cfg k unit) := by
    apply List.ext_getElem
    · rw [count,List.length_map,List.length_range]
    · intro j inside' _
      rw [List.getElem_map,List.getElem_range]
      exact (each j _ (List.getElem?_eq_getElem inside')).1
  have payload : ((first :: rest).map ParsedVideoFrame.payload).flatten = unit.2 := by
    rw [whole,List.map_map]
    exact pieces_flatten cfg unit
  have positive := totalOf_pos cfg unit
  have last : units[k]? = some unit := by
    have ends : totalOf cfg unit - 1 < (first :: rest).length := by omega
    rcases (each _ _ (List.getElem?_eq_getElem ends)).2 with found | missing
    · exact found
    · omega
  refine ⟨unit,List.mem_of_getElem? last,?_⟩
  obtain rfl := (each 0 first rfl).1
  rw [payload]
  rfl

theorem shown_single (here : Carried cfg units lost p) (single : p.header.totalFrags ≤ 1) :
    ∃ unit ∈ units, (⟨p.header.frameType,p.header.codec,p.payload⟩ : CompleteAccessUnit) = shown unit := by
  obtain ⟨k,unit,i,rfl,inside,fit,small,there⟩ := here
  have total : (fragmentOf cfg k unit i).header.totalFrags = totalOf cfg unit := Chunks.length_pieces _ _ _
  have alone : totalOf cfg unit = 1 := by
    have := totalOf_pos cfg unit
    omega
  obtain rfl : i = 0 := by omega
  have payload : Chunks.chunk (hostChunkSize cfg.maxFragmentBytes) unit.2 0 = unit.2 := by
    have whole := pieces_flatten cfg unit
    rw [alone] at whole
    simpa [Chunks.pieces] using whole
  rcases there with found | ⟨_,_,missing⟩
  · refine ⟨unit,List.mem_of_getElem? found,?_⟩
    simp only [fragmentOf,SplitFrame.fragment,hostFrame,payload,shown]
  · omega

/-- Whatever fragments of the stream arrive, in any order and number, each frame shown is one of it. -/
theorem answers_authentic (few : cfg.framesToSend.toNat ≤ 2 ^ 24) (pushes : List ParsedVideoFrame)
    (carried : ∀ p ∈ pushes, Carried cfg units lost p) :
    ∀ out ∈ (SplitFrame.answers .idle pushes).filterMap id, ∃ unit ∈ units, out = shown unit := by
  induction pushes using List.reverseRecOn with
  | nil => exact List.forall_mem_nil _
  | append_singleton earlier p ih =>
    have here := carried p (List.mem_append_right _ List.mem_cons_self)
    have collects := calls_invariant VideoFragmentReassembler.push VideoFragmentReassembler.Collects
      (fun _ _ frame collects => (collects.push frame).1) .idle earlier .idle
    obtain ⟨_,assembled⟩ := collects.push p
    rw [answers_append,List.filterMap_append,List.forall_mem_append]
    refine ⟨ih fun q member => carried q (List.mem_append_left _ member),?_⟩
    intro out shows
    have answered : ((final VideoFragmentReassembler.push .idle earlier).push p).1 = some out := by
      simpa [SplitFrame.answers,trace,fire,eq_comm] using shows
    by_cases several : 1 < p.header.totalFrags
    · exact shown_assembled few carried here (assembled out answered several)
    · have single := Nat.not_lt.mp several
      rw [VideoFragmentReassembler.push,if_pos single,Option.some.injEq] at answered
      rw [← answered]
      exact shown_single here single

end Authentic

end Browser

/-- What a loop has sent from its start. -/
theorem sends_start {α : Type} [VideoFrameSource α] (cfg : StreamConfig) (source : α) (accepts : Nat → Bool)
    (hangups : List Bool) :
    ∃ units part, Sends cfg (start source accepts) hangups (final (tick cfg) (start source accepts) hangups) units part ∧
      (final (tick cfg) (start source accepts) hangups).sent = units.length ∧ units.length ≤ cfg.framesToSend.toNat ∧
      (final (tick cfg) (start source accepts) hangups).channel.wire = streamWire cfg 0 0 units ++ part ∧
      Cut cfg (0 + units.length) (0 + (streamWire cfg 0 0 units).length) part := by
  have running : Running cfg (start source accepts) := ⟨rfl,Nat.zero_le _,rfl⟩
  obtain ⟨units,part,sends⟩ := sends_run running hangups
  have sent : (final (tick cfg) (start source accepts) hangups).sent = 0 + units.length := sends.sent
  have bounded := sends.bounded
  have cut := sends.cut
  rw [sent] at bounded cut
  rw [Nat.zero_add] at sent bounded
  exact ⟨units,part,sends,sent,bounded,sends.wire,cut⟩

/-- Over every run of the send loop, for any source and wherever the channel or the peer gives up: the
frames sent are the first of the source that fit, each datagram carries its place in the stream as
its sequence number, also behind frames that were dropped, and a browser that gets the datagrams in
order shows exactly the frames sent, once each. Where nothing gives up no frame that fits is left
out. -/
theorem host_stream_delivered {α : Type} [VideoFrameSource α] (cfg : StreamConfig) (source : α) (accepts : Nat → Bool)
    (hangups : List Bool) :
    let loop := final (tick cfg) (start source accepts) hangups
    ∃ units, units <+: (offered cfg hangups.length source).filter (fits cfg) ∧ loop.sent = units.length ∧
      units.length ≤ cfg.framesToSend.toNat ∧ viewed loop.channel.wire = units.map shown ∧
      (∀ i datagram, loop.channel.wire[i]? = some datagram → Numbered i datagram) ∧
      ((∀ n, accepts n = true) → (∀ hangup ∈ hangups, hangup = false) →
        units = ((offered cfg hangups.length source).filter (fits cfg)).take cfg.framesToSend.toNat) := by
  obtain ⟨units,part,sends,sent,bounded,wire,cut⟩ := sends_start cfg source accepts hangups
  refine ⟨units,sends.ordered,sent,bounded,?_,?_,sends.complete⟩
  · rw [viewed,wire]
    exact viewed_stream sends.fit .idle cut
  · intro i datagram here
    rw [wire] at here
    have numbered := numbered_stream cut here
    rwa [Nat.zero_add] at numbered

/-- However the network loses, repeats and reorders the datagrams of a stream of at most `2 ^ 24` frames,
every frame the browser shows is a frame that was sent in full. -/
theorem host_stream_authentic {α : Type} [VideoFrameSource α] (cfg : StreamConfig) (source : α) (accepts : Nat → Bool)
    (hangups : List Bool) (few : cfg.framesToSend.toNat ≤ 2 ^ 24) (arrivals : List Bytes)
    (drawn : ∀ datagram ∈ arrivals, datagram ∈ (final (tick cfg) (start source accepts) hangups).channel.wire) :
    ∃ units, units <+: (offered cfg hangups.length source).filter (fits cfg) ∧
      units.length = (final (tick cfg) (start source accepts) hangups).sent ∧
      ∀ out ∈ viewed arrivals, ∃ unit ∈ units, out = shown unit := by
  obtain ⟨units,part,sends,sent,bounded,wire,cut⟩ := sends_start cfg source accepts hangups
  rw [Nat.zero_add,Nat.zero_add] at cut
  obtain ⟨lost,carried⟩ := carried_wire sends.fit bounded cut
  have arrived : ∀ p ∈ arrivals.filterMap parseVideoFrame, Carried cfg units lost p := by
    intro p member
    obtain ⟨datagram,arrived,parsed⟩ := List.mem_filterMap.mp member
    have there := drawn datagram arrived
    rw [wire] at there
    obtain ⟨q,parsed',carries⟩ := carried datagram there
    rw [parsed] at parsed'
    cases parsed'
    exact carries
  exact ⟨units,sends.ordered,sent.symm,answers_authentic few _ arrived⟩

end HostStream

/-! The clip that comes with the host: frames behind one another, each with its length and type. -/

/-- The type byte is any byte here; which type it means is decided behind the loop. -/
def nextBaked (data : Bytes) : Option ((UInt8 × Bytes) × Bytes) :=
  if data.length < 4 then none
  else
    let len := fromBeBytes (data.take 4).reverse
    match data.drop 4 with
    | [] => none
    | frameTypeByte :: rest => if rest.length < len then none else some ((frameTypeByte,rest.take len),rest.drop len)

def bakedFrameType (byte : UInt8) : FrameType :=
  if byte = 1 then .idr else if byte = 2 then .intraRefresh else .predicted

def parseBakedFrames (data : Bytes) : List AccessUnit :=
  (Delimited.drain nextBaked data).1.map fun frame => (bakedFrameType frame.1,frame.2)

structure BakedFrameSource where
  frames : List AccessUnit
  index : Nat

namespace BakedFrameSource

open HostStream Machine

def new (data : Bytes) : BakedFrameSource := ⟨parseBakedFrames data,0⟩

def nextFrame (source : BakedFrameSource) : Except HostError AccessUnit × BakedFrameSource :=
  if source.frames = [] then (.error ⟨"baked H.264 fixture is empty",none⟩,source)
  else
    match source.frames[source.index % source.frames.length]? with
    | none => (.error ⟨"baked frame index out of bounds (internal error)",none⟩,source)
    | some unit => (.ok unit,{ source with index := (source.index + 1) % 2 ^ 64 })

instance : VideoFrameSource BakedFrameSource := ⟨nextFrame,id⟩

/-- How the fixture generator writes a frame. -/
def bakedCode (frame : UInt8 × Bytes) : Bytes := (toBeBytes 4 frame.2.length).reverse ++ frame.1 :: frame.2

def fixture (frames : List AccessUnit) : Bytes :=
  Delimited.wire bakedCode (frames.map fun unit => (unit.1.toBits,unit.2))

theorem bakedFrameType_toBits (frameType : FrameType) : bakedFrameType frameType.toBits = frameType := by
  cases frameType <;> rfl

theorem reads_baked : Delimited.Reads nextBaked (fun frame => frame.2.length < 256 ^ 4) bakedCode where
  exactly data frame rest := by
    obtain ⟨byte,payload⟩ := frame
    constructor
    · intro found
      by_cases short : data.length < 4
      · simp [nextBaked,short] at found
      · have front : (data.take 4).length = 4 := by simp; omega
        cases behind : data.drop 4 with
        | nil => simp [nextBaked,short,behind] at found
        | cons first later =>
          by_cases cut : later.length < fromBeBytes (data.take 4).reverse
          · simp [nextBaked,short,behind,cut] at found
          · simp only [nextBaked,short,behind,cut,if_false,Option.some.injEq,Prod.mk.injEq] at found
            obtain ⟨⟨rfl,rfl⟩,rfl⟩ := found
            have width : (later.take (fromBeBytes (data.take 4).reverse)).length = fromBeBytes (data.take 4).reverse := by
              rw [List.length_take]
              omega
            have bound := fromBeBytes_lt (data.take 4).reverse
            have back := toBeBytes_fromBeBytes (data.take 4).reverse
            rw [List.length_reverse,front] at bound back
            refine ⟨by simpa only [width] using bound,?_⟩
            rw [bakedCode,width,back,List.reverse_reverse,List.append_assoc,List.cons_append,List.take_append_drop,← behind,
              List.take_append_drop]
    · rintro ⟨bound,rfl⟩
      have front : ((bakedCode (byte,payload) ++ rest).take 4).reverse = toBeBytes 4 payload.length := by
        rw [bakedCode,List.append_assoc,List.take_left' (by simp),List.reverse_reverse]
      have behind : (bakedCode (byte,payload) ++ rest).drop 4 = byte :: (payload ++ rest) := by
        rw [bakedCode,List.append_assoc,List.drop_left' (by simp),List.cons_append]
      have long : ¬(bakedCode (byte,payload) ++ rest).length < 4 := by simp [bakedCode]
      have len : fromBeBytes (toBeBytes 4 payload.length) = payload.length := fromBeBytes_of_lt bound
      rw [nextBaked,if_neg long,front,behind,len]
      simp
  proper frame _ empty := by simp [bakedCode] at empty

variable {frames : List AccessUnit} {reads : Nat → AccessUnit}

/-- The clip is read back, whatever unfinished frame follows it. -/
theorem parseBakedFrames_fixture (narrow : ∀ unit ∈ frames, unit.2.length < 256 ^ 4)
    {tail : Bytes} (unfinished : nextBaked tail = none) : parseBakedFrames (fixture frames ++ tail) = frames := by
  have spec := reads_baked.drainLoop_spec _ (fixture frames ++ tail) le_rfl
  have ok : ∀ frame ∈ frames.map fun unit => (unit.1.toBits,unit.2), frame.2.length < 256 ^ 4 :=
    List.forall_mem_map.mpr narrow
  have parsed := Delimited.eq_of_wire reads_baked.selfDelimiting spec.ok ok spec.unfinished
    ((reads_baked.unfinished_iff tail).mpr unfinished) spec.split
  rw [parseBakedFrames,Delimited.drain,parsed.1,List.map_map]
  conv_rhs => rw [← List.map_id frames]
  exact List.map_congr_left fun unit _ => Prod.ext (bakedFrameType_toBits unit.1) rfl

theorem nextFrame_eq (cycle : ∀ i, frames[i % frames.length]? = some (reads i)) (m : Nat) :
    VideoFrameSource.nextFrame ({ frames := frames, index := m } : BakedFrameSource) =
      (.ok (reads m),{ frames := frames, index := (m + 1) % 2 ^ 64 }) := by
  have nonempty : frames ≠ [] := by
    rintro rfl
    cases cycle 0
  change nextFrame _ = _
  rw [nextFrame,if_neg nonempty]
  simp only [cycle m]

theorem rearmed (source : BakedFrameSource) (p : Prop) [Decidable p] :
    (if p then source else VideoFrameSource.requestKeyframe source) = source := ite_self source

theorem mem_offered (cfg : StreamConfig) (cycle : ∀ i, frames[i % frames.length]? = some (reads i)) (n m : Nat) :
    ∀ unit ∈ offered cfg n ({ frames := frames, index := m } : BakedFrameSource), unit ∈ frames := by
  induction n generalizing m with
  | zero => exact List.forall_mem_nil _
  | succ n ih =>
    simp only [offered,nextFrame_eq cycle,rearmed]
    exact List.forall_mem_cons.mpr ⟨List.mem_of_getElem? (cycle m),ih _⟩

/-- As long as the index does not wrap, the clip goes round. -/
theorem offered_cycles (cfg : StreamConfig)
    (cycle : ∀ i, frames[i % frames.length]? = some (reads i)) (n m : Nat) (bounded : m + n < 2 ^ 64) :
    offered cfg n ({ frames := frames, index := m } : BakedFrameSource) = (List.range' m n).map reads := by
  induction n generalizing m with
  | zero => rfl
  | succ n ih =>
    have small : (m + 1) % 2 ^ 64 = m + 1 := Nat.mod_eq_of_lt (by omega)
    simp only [offered,nextFrame_eq cycle,rearmed]
    rw [small,ih (m + 1) (by omega),List.range'_succ,List.map_cons]

/-- A host that streams a clip over a channel that stays open. The clip has a frame and each of its frames
fits into 255 fragments; then, whatever unfinished frame ends the fixture, the browser sees the frames of the
clip over and over, in order and unchanged. -/
theorem baked_stream_cycles (cfg : StreamConfig) (frames : List AccessUnit) (nonempty : frames ≠ [])
    (fit : ∀ unit ∈ frames, fits cfg unit = true) (tail : Bytes) (unfinished : nextBaked tail = none) (ticks : Nat) :
    viewed (final (tick cfg) (start (new (fixture frames ++ tail)) fun _ => true) (List.replicate ticks false)).channel.wire =
      (List.range (min cfg.framesToSend.toNat ticks)).map fun i => shown (frames.getD (i % frames.length) (.predicted,[])) := by
  have narrow : ∀ unit ∈ frames, unit.2.length < 256 ^ 4 := by
    intro unit member
    have short : unit.2.length ≤ 255 * hostChunkSize cfg.maxFragmentBytes := of_decide_eq_true (fit unit member)
    have size := hostChunkSize_le cfg.maxFragmentBytes
    simp only [u16Max] at size
    omega
  have cycle : ∀ i, frames[i % frames.length]? = some (frames.getD (i % frames.length) (.predicted,[])) := by
    intro i
    have inside := Nat.mod_lt i (List.length_pos_of_ne_nil nonempty)
    rw [List.getD_eq_getElem?_getD,List.getElem?_eq_getElem inside,Option.getD_some]
  obtain ⟨units,part,sends,sent,bound,wire,cut⟩ :=
    sends_start cfg (new (fixture frames ++ tail)) (fun _ => true) (List.replicate ticks false)
  have all : units = ((offered cfg (List.replicate ticks false).length
      (start (new (fixture frames ++ tail)) fun _ => true).source).filter (fits cfg)).take cfg.framesToSend.toNat :=
    sends.complete (fun _ => rfl) (fun _ member => List.eq_of_mem_replicate member)
  have source : (start (new (fixture frames ++ tail)) fun _ => true).source = { frames := frames, index := 0 } := by
    rw [start,new,parseBakedFrames_fixture narrow unfinished]
  have enough : 0 + min cfg.framesToSend.toNat ticks < 2 ^ 64 := by
    have := cfg.framesToSend.toNat_lt
    omega
  rw [source,List.length_replicate,List.filter_eq_self.mpr fun unit member => fit unit (mem_offered cfg cycle _ _ unit member),
    offered_take,offered_cycles cfg cycle _ 0 enough,← List.range_eq_range'] at all
  rw [wire,viewed,viewed_stream sends.fit .idle cut,all,List.map_map]
  rfl

/-- A clip of two frames with a stray byte behind it, for three rounds. -/
def clip : List AccessUnit := [(.idr,[1,2,3]),(.predicted,[4])]

def clipConfig : StreamConfig := ⟨5,33333,2⟩

theorem baked_stream_cycles_clip :
    viewed (final (tick clipConfig) (start (new (fixture clip ++ [7])) fun _ => true) (List.replicate 3 false)).channel.wire =
      [⟨1,0,[1,2,3]⟩,⟨0,0,[4]⟩,⟨1,0,[1,2,3]⟩] :=
  baked_stream_cycles clipConfig clip (List.cons_ne_nil _ _) (by decide) [7] rfl 3

/-- The datagrams of two rounds, and then once more in reverse. -/
def scrambled : List Bytes :=
  let wire := (final (tick clipConfig) (start (new (fixture clip)) fun _ => true) [false,false]).channel.wire
  wire ++ wire.reverse

theorem host_stream_authentic_scrambled :
    viewed scrambled = [⟨1,0,[1,2,3]⟩,⟨0,0,[4]⟩,⟨0,0,[4]⟩] ∧
    ∃ units, units <+: (offered clipConfig 2 (new (fixture clip))).filter (fits clipConfig) ∧
      units.length = (final (tick clipConfig) (start (new (fixture clip)) fun _ => true) [false,false]).sent ∧
      ∀ out ∈ viewed scrambled, ∃ unit ∈ units, out = shown unit := by
  refine ⟨by decide +kernel,host_stream_authentic clipConfig (new (fixture clip)) (fun _ => true) [false,false]
    (by decide) scrambled ?_⟩
  intro datagram member
  rcases List.mem_append.mp member with once | again
  · exact once
  · exact List.mem_reverse.mp again

end BakedFrameSource

end Streamhaul
