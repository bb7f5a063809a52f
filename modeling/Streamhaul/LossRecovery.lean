import Streamhaul.Dwell
import Streamhaul.GapDetector

/-! The loss-recovery policy of the receiver: retransmission requests, reliance on forward error correction
or a forced keyframe, by round-trip time and observed loss. Times are in nanoseconds; fractions are values of
any linear order, absent where the source has a float that is not a number. -/
namespace Streamhaul.LossRecovery

open Machine GapDetector

def rttMidBandLow : Nat := 150000000
def rttHigh : Nat := 300000000
def idrSuppressMin : Nat := 500000000
def nackMaxConsecutiveLoss : Nat := 2
def idrFrameGapThreshold : Nat := 3
def idrFrameGapThresholdMid : Nat := 2
def idrFrameGapThresholdHigh : Nat := 1
def maxKeyframeAge : Nat := 10000000000
def rttMin : Nat := 100000
def durationMax : Nat := (2 ^ 64 - 1) * 1000000000 + 999999999

/-- The bounds of a fraction and the two loss thresholds. -/
structure Scale (M : Type) where
  zero : M
  one : M
  fecLoss : M
  staleKeyframeLoss : M

inductive RecoveryAction where
  | none
  | nack (requests : List (BitVec 16))
  | relyOnFec
  | forcedIdr
  deriving DecidableEq

structure LossState (M : Type) where
  rtt : Nat
  consecutiveLoss : Nat
  loss5s : Option M
  frameGap : Nat
  timeSinceKeyframe : Nat
  fecRatio : Option M
  missingSeqs : List (BitVec 16)

structure LossRecoveryController where
  lastIdrRequest : Option Nat
  deriving DecidableEq

section Policy

variable {M : Type} [LinearOrder M] (scale : Scale M)

def suppressWindow (rtt : Nat) : Nat := max idrSuppressMin (min (rtt * 2) durationMax)

def clamp (x : Option M) : Option M := x.map (fun value => max scale.zero (min value scale.one))

/-- Comparisons with something that is not a number are false. -/
def less (x y : Option M) : Bool :=
  match x, y with
  | some a, some b => a < b
  | _, _ => false

def atLeast (x y : Option M) : Bool :=
  match x, y with
  | some a, some b => b ≤ a
  | _, _ => false

def determineAction (rtt consecutiveLoss : Nat) (loss5s : Option M) (frameGap timeSinceKeyframe : Nat)
    (fecRatio : Option M) (missingSeqs : List (BitVec 16)) : RecoveryAction :=
  if rtt < rttMidBandLow ∧ consecutiveLoss ≤ nackMaxConsecutiveLoss ∧ less loss5s (some scale.fecLoss) ∧
      frameGap < idrFrameGapThreshold ∧ missingSeqs ≠ [] then
    .nack (missingSeqs.take 16)
  else
    let idrGapThreshold :=
      if rtt < rttMidBandLow then idrFrameGapThreshold
      else if rtt ≤ rttHigh then idrFrameGapThresholdMid
      else idrFrameGapThresholdHigh
    if frameGap ≥ idrGapThreshold ∨ atLeast loss5s (some scale.fecLoss) ∨
        timeSinceKeyframe > maxKeyframeAge ∧ less (some scale.staleKeyframeLoss) loss5s then
      .forcedIdr
    else if less loss5s fecRatio ∧ frameGap ≤ 1 then .relyOnFec
    else .none

namespace LossRecoveryController

def new : LossRecoveryController := ⟨none⟩

/-- A clock that has gone back counts as no time at all. -/
def elapsed (lastIdr now : Nat) : Nat := now - lastIdr

def suppressed (controller : LossRecoveryController) (rtt now : Nat) : Bool :=
  match controller.lastIdrRequest with
  | none => false
  | some lastIdr => elapsed lastIdr now < suppressWindow rtt

def onFeedback (controller : LossRecoveryController) (state : LossState M) (now : Nat) :
    RecoveryAction × LossRecoveryController :=
  let rtt := max state.rtt rttMin
  if controller.suppressed rtt now then (.none,controller)
  else
    let action := determineAction scale rtt state.consecutiveLoss (clamp scale state.loss5s) state.frameGap
      state.timeSinceKeyframe (clamp scale state.fecRatio) state.missingSeqs
    (action,if action = .forcedIdr then ⟨some now⟩ else controller)

def suppressionRemaining (controller : LossRecoveryController) (rtt now : Nat) : Option Nat :=
  controller.lastIdrRequest.bind fun lastIdr =>
    let window := suppressWindow (max rtt rttMin)
    if elapsed lastIdr now ≤ window then some (window - elapsed lastIdr now) else none

/-- Suppression holds as long as some of its time remains. -/
theorem suppressed_iff_remaining (controller : LossRecoveryController) (rtt now : Nat) :
    controller.suppressed (max rtt rttMin) now = true ↔
      ∃ remaining, 0 < remaining ∧ controller.suppressionRemaining rtt now = some remaining := by
  unfold suppressed suppressionRemaining
  cases controller.lastIdrRequest with
  | none => simp
  | some lastIdr =>
    simp only [Option.bind_some,decide_eq_true_eq,Option.ite_none_right_eq_some,Option.some.injEq]
    constructor
    · intro within
      exact ⟨_,by omega,within.le,rfl⟩
    · rintro ⟨remaining,positive,_,rfl⟩
      omega

end LossRecoveryController

end Policy

/-! The receiver: the detector reports on each packet, and the controller acts on the report. -/

/-- A packet, by its position in the stream, and what was measured when it came. -/
structure Arrival (M : Type) where
  position : Int
  rtt : Nat
  loss5s : Option M
  timeSinceKeyframe : Nat
  fecRatio : Option M
  now : Nat

structure Receiver where
  detector : GapDetector
  controller : LossRecoveryController

section Receiver

variable {M : Type} [LinearOrder M] (scale : Scale M)

def stateOf (report : GapReport) (arrival : Arrival M) : LossState M where
  rtt := arrival.rtt
  consecutiveLoss := report.consecutiveLoss
  loss5s := arrival.loss5s
  frameGap := report.frameGap
  timeSinceKeyframe := arrival.timeSinceKeyframe
  fecRatio := arrival.fecRatio
  missingSeqs := report.missingSeqs

def step (receiver : Receiver) (arrival : Arrival M) : RecoveryAction × Receiver :=
  let (report,detector) := receiver.detector.onReceive (seqOf arrival.position)
  let (action,controller) := receiver.controller.onFeedback scale (stateOf report arrival) arrival.now
  (action,⟨detector,controller⟩)

def start : Receiver := ⟨GapDetector.new,LossRecoveryController.new⟩

/-- The policy for exact counts. Requests go first: while there is something to ask for again, at a low
round-trip time and a low loss, even a stale keyframe is not replaced. -/
def policy (report : GapReport) (arrival : Arrival M) : RecoveryAction :=
  if max arrival.rtt rttMin < rttMidBandLow ∧ report.consecutiveLoss ≤ nackMaxConsecutiveLoss ∧
      less (clamp scale arrival.loss5s) (some scale.fecLoss) ∧ report.missingSeqs ≠ [] then
    .nack report.missingSeqs
  else if atLeast (clamp scale arrival.loss5s) (some scale.fecLoss) ∨
      arrival.timeSinceKeyframe > maxKeyframeAge ∧ less (some scale.staleKeyframeLoss) (clamp scale arrival.loss5s) then
    .forcedIdr
  else if less (clamp scale arrival.loss5s) (clamp scale arrival.fecRatio) then .relyOnFec
  else .none

end Receiver

def scale : Scale ℚ := ⟨0,1,1/20,1/100⟩

/-- Ten milliseconds away, with a loss of two percent. -/
def packet (position : Int) (now : Nat) : Arrival ℚ := ⟨position,10000000,some (1/50),0,some (1/20),now⟩

structure RefreshStripe where
  stripeIndex : Nat
  period : Nat
  deriving DecidableEq

structure RollingIntraRefresh where
  fps : UInt32
  currentStripe : Nat
  period : Nat
  deriving DecidableEq

inductive RefreshCall where
  | advance
  | setFps (fps : UInt32)

namespace RollingIntraRefresh

def computePeriod (fps : UInt32) : Nat := max ((fps.toNat + 3) / 4) 1

def new (fps : UInt32) : RollingIntraRefresh := ⟨fps,0,computePeriod fps⟩

def advance (r : RollingIntraRefresh) : RefreshStripe × RollingIntraRefresh :=
  let next := (r.currentStripe + 1) % 2 ^ 32
  (⟨r.currentStripe,r.period⟩,{ r with currentStripe := if next ≥ r.period then 0 else next })

def setFps (fps : UInt32) : RollingIntraRefresh := ⟨fps,0,computePeriod fps⟩

def step (r : RollingIntraRefresh) : RefreshCall → Option RefreshStripe × RollingIntraRefresh
  | .advance => (some r.advance.1,r.advance.2)
  | .setFps fps => (none,setFps fps)

/-- The stripe is one of the period, and counting it never wraps. -/
structure Cycling (r : RollingIntraRefresh) : Prop where
  stripe : r.currentStripe < r.period
  small : r.period ≤ 2 ^ 30

theorem cycling_new (fps : UInt32) : Cycling ⟨fps,0,computePeriod fps⟩ := by
  have bound := fps.toNat_lt
  constructor
  · exact lt_max_of_lt_right Nat.one_pos
  · simp only [computePeriod]
    omega

variable {r : RollingIntraRefresh}

theorem advance_eq (cycling : r.Cycling) :
    r.advance = (⟨r.currentStripe,r.period⟩,{ r with currentStripe := (r.currentStripe + 1) % r.period }) := by
  have stripe := cycling.stripe
  have small := cycling.small
  have exact : (r.currentStripe + 1) % 2 ^ 32 = r.currentStripe + 1 := Nat.mod_eq_of_lt (by omega)
  simp only [advance,exact,Prod.mk.injEq,RollingIntraRefresh.mk.injEq,true_and,and_true]
  split
  · next last =>
    have : r.currentStripe + 1 = r.period := by omega
    rw [this,Nat.mod_self]
  · next before => exact (Nat.mod_eq_of_lt (by omega)).symm

theorem cycling_advance (cycling : r.Cycling) : r.advance.2.Cycling := by
  rw [advance_eq cycling]
  exact ⟨Nat.mod_lt _ (Nat.zero_lt_of_lt cycling.stripe),cycling.small⟩

theorem cycling_step (r : RollingIntraRefresh) (call : RefreshCall) (cycling : r.Cycling) : (r.step call).2.Cycling := by
  cases call with
  | advance => exact cycling_advance cycling
  | setFps fps => exact cycling_new fps

theorem cycling_run (fps : UInt32) (calls : List RefreshCall) : (final step (new fps) calls).Cycling :=
  final_invariant step (fun _ _ => True) Cycling (fun r call _ => cycling_step r call) (new fps) calls (cycling_new fps)
    (fun _ _ => trivial)

def stripes (r : RollingIntraRefresh) (frames : Nat) : List RefreshStripe :=
  (trace step r (List.replicate frames .advance)).filterMap Event.response

theorem stripes_eq (cycling : r.Cycling) (frames : Nat) :
    r.stripes frames = (List.range frames).map (fun i => ⟨(r.currentStripe + i) % r.period,r.period⟩) ∧
    final step r (List.replicate frames .advance) = { r with currentStripe := (r.currentStripe + frames) % r.period } := by
  induction frames generalizing r with
  | zero =>
    refine ⟨rfl,?_⟩
    simp [final,Nat.mod_eq_of_lt cycling.stripe]
  | succ frames ih =>
    have next : (r.step .advance) = (some ⟨r.currentStripe,r.period⟩,
        { r with currentStripe := (r.currentStripe + 1) % r.period }) := by
      rw [step,advance_eq cycling]
    obtain ⟨shown,ended⟩ := ih (cycling_step r .advance cycling)
    rw [next] at shown ended
    rw [stripes] at shown ⊢
    constructor
    · rw [List.replicate_succ,trace,List.filterMap_cons,fire,next,shown,List.range_succ_eq_map,List.map_cons,List.map_map]
      simp only [Nat.add_zero,Nat.mod_eq_of_lt cycling.stripe,Nat.mod_add_mod,Function.comp_def,Nat.succ_eq_add_one,
        Nat.add_assoc,Nat.add_comm 1]
    · rw [List.replicate_succ,final,next,ended]
      simp only [Nat.mod_add_mod,Nat.add_assoc,Nat.add_comm 1]

/-- From any state of a run, the next frames of a period refresh every stripe exactly once, and after them the
scheduler is where it was. -/
theorem refresh_covers (fps : UInt32) (calls : List RefreshCall) :
    let r := final step (new fps) calls
    ((r.stripes r.period).map RefreshStripe.stripeIndex).Perm (List.range r.period) ∧
    (∀ stripe ∈ r.stripes r.period, stripe.period = r.period) ∧
    final step r (List.replicate r.period .advance) = r := by
  intro r
  have cycling : r.Cycling := cycling_run fps calls
  obtain ⟨shown,ended⟩ := stripes_eq cycling r.period
  rw [shown,ended]
  refine ⟨?_,by simp,?_⟩
  · have turned : ((List.range r.period).map (fun i => (⟨(r.currentStripe + i) % r.period,r.period⟩ : RefreshStripe))).map
        RefreshStripe.stripeIndex = (List.range r.period).rotate r.currentStripe := by
      apply List.ext_getElem
      · simp
      · intro i _ _
        simp [List.getElem_rotate,Nat.add_comm]
    rw [turned]
    exact List.rotate_perm _ _
  · rw [Nat.add_mod_right,Nat.mod_eq_of_lt cycling.stripe]

end RollingIntraRefresh

end Streamhaul.LossRecovery
