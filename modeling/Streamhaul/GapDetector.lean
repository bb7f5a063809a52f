import Streamhaul.Bytes
import Streamhaul.Machine

/-! Gap detection over 16-bit sequence numbers: a mask of the last sixteen positions below the
highest, and the report of those that are missing. -/
namespace Streamhaul

open Machine

structure GapReport where
  consecutiveLoss : Nat
  frameGap : Nat
  nackBitmap : BitVec 16
  missingSeqs : List (BitVec 16)
  deriving DecidableEq

structure GapDetector where
  highestSeq : Option (BitVec 16)
  receivedMask : BitVec 16
  lastReceivedSeq : Option (BitVec 16)
  seqsTracked : Nat
  deriving DecidableEq

namespace GapDetector

def new : GapDetector := ⟨none,0#16,none,0⟩

/-- `u16::wrapping_shl`. -/
def wrappingShl (x : BitVec 16) (n : Nat) : BitVec 16 := x <<< (n % 16)

/-- `u16::trailing_zeros`: the first bit that is set, or 16. -/
def trailingZeros (x : BitVec 16) : Nat := (List.range 16).findIdx x.getLsbD

/-- The sequence number moves the window forward. -/
def advance (d : GapDetector) (seq : BitVec 16) (delta : Nat) : GapDetector :=
  let shifted := if delta ≥ 16 then 0#16 else d.receivedMask <<< delta
  let oldHighestBit := if delta ≤ 16 then wrappingShl 1#16 (delta - 1) else 0#16
  { highestSeq := some seq
    receivedMask := shifted ||| oldHighestBit
    lastReceivedSeq := some seq
    seqsTracked := min (satAdd u16Max d.seqsTracked (min delta 16)) 16 }

/-- A sequence number below the highest one, marked when it is in the window. -/
def markLate (d : GapDetector) (back : Nat) : GapDetector :=
  if back > 0 ∧ back ≤ 16 then { d with receivedMask := d.receivedMask ||| wrappingShl 1#16 (back - 1) } else d

def record (d : GapDetector) (seq : BitVec 16) : GapDetector :=
  match d.highestSeq with
  | none => ⟨some seq,0#16,some seq,0⟩
  | some highest =>
    let delta := (seq - highest).toNat
    if delta > 0 ∧ delta < 32768 then d.advance seq delta
    else if delta = 0 then { d with lastReceivedSeq := some seq }
    else d.markLate (highest - seq).toNat

/-- The tracked positions: the lowest bits. -/
def trackedMask (tracked : Nat) : BitVec 16 :=
  if tracked ≥ 16 then 0xFFFF#16 else BitVec.ofNat 16 ((1#16 <<< tracked).toNat - 1)

def missing (highest : BitVec 16) (tracked : Nat) (nackBitmap : BitVec 16) : List (BitVec 16) :=
  ((List.range 16).takeWhile (· < tracked)).filterMap (fun i =>
    if (nackBitmap >>> i) &&& 1#16 = 1#16 then some (highest - (1#16 + BitVec.ofNat 16 i)) else none)

def buildReport (d : GapDetector) : GapReport :=
  match d.highestSeq with
  | none => ⟨0,0,0#16,[]⟩
  | some highest =>
    let frameGap := match d.lastReceivedSeq with
      | none => 0
      | some last => (highest - last).toNat
    let tracked := d.seqsTracked
    let nackBitmap := ~~~d.receivedMask &&& trackedMask tracked
    let consecutiveLoss := min (trailingZeros d.receivedMask) tracked
    ⟨consecutiveLoss,frameGap,nackBitmap,missing highest tracked nackBitmap⟩

def onReceive (d : GapDetector) (seq : BitVec 16) : GapReport × GapDetector := ((d.record seq).buildReport,d.record seq)

/-! Unwrapped positions. -/

def seqOf (p : Int) : BitVec 16 := BitVec.ofInt 16 p

/-- In the window below the highest position, not before the first one, and never received. -/
def Missing (first highest : Int) (received : Set Int) (p : Int) : Prop :=
  max first (highest - 16) ≤ p ∧ p < highest ∧ p ∉ received

/-- The detector stands for what was received. -/
structure Tracks (d : GapDetector) (first highest : Int) (received : Set Int) : Prop where
  highestSeq : d.highestSeq = some (seqOf highest)
  lastReceivedSeq : d.lastReceivedSeq = some (seqOf highest)
  greatest : IsGreatest received highest
  start : first ≤ highest
  tracked : (d.seqsTracked : Int) = min 16 (highest - first)
  mask : ∀ i : Nat, i < 16 → (d.receivedMask.getLsbD i = true ↔ highest - 1 - i ∈ received)

/-- Differences of sequence numbers are differences of positions, modulo 2^16. -/
theorem toNat_seqOf_sub (p q : Int) : ((seqOf p - seqOf q).toNat : Int) = (p - q) % 65536 := by
  rw [BitVec.toNat_sub]
  simp only [seqOf,BitVec.toNat_ofInt]
  omega

theorem getLsbD_wrappingShl_one {n i : Nat} (small : n < 16) (inside : i < 16) :
    (wrappingShl 1#16 n).getLsbD i = true ↔ i = n := by
  have bits : ∀ n i : Fin 16, (wrappingShl 1#16 n).getLsbD i = decide (i = n) := by decide +kernel
  have bit := bits ⟨n,small⟩ ⟨i,inside⟩
  rw [bit,decide_eq_true_eq,Fin.mk.injEq]

theorem getLsbD_trackedMask {tracked i : Nat} (inside : i < 16) : (trackedMask tracked).getLsbD i = true ↔ i < tracked := by
  by_cases full : tracked ≥ 16
  · have all : ∀ i : Fin 16, (0xFFFF#16).getLsbD i = true := by decide
    rw [trackedMask,if_pos full]
    exact iff_of_true (all ⟨i,inside⟩) (by omega)
  · have bits : ∀ tracked i : Fin 16, (BitVec.ofNat 16 ((1#16 <<< tracked.val).toNat - 1)).getLsbD i =
        decide (i < tracked) := by
      decide +kernel
    rw [trackedMask,if_neg full]
    have bit := bits ⟨tracked,by omega⟩ ⟨i,inside⟩
    rw [bit,decide_eq_true_eq,Fin.mk_lt_mk]

section Step

variable {d : GapDetector} {first highest : Int} {received : Set Int}

theorem record_first (p : Int) : Tracks (new.record (seqOf p)) p p {p} where
  highestSeq := rfl
  lastReceivedSeq := rfl
  greatest := isGreatest_singleton
  start := le_rfl
  tracked := by simp [record,new]
  mask i inside := by
    have below : p - 1 - i ≠ p := by omega
    simp [record,new,below]

/-- A position above the highest: the mask moves up, and the old highest is marked. -/
theorem advance_tracks (tracks : Tracks d first highest received) {p : Int} {delta : Nat} (above : highest < p)
    (distance : (delta : Int) = p - highest) : Tracks (d.advance (seqOf p) delta) first p (insert p received) where
  highestSeq := rfl
  lastReceivedSeq := rfl
  greatest := by
    refine ⟨Set.mem_insert _ _,?_⟩
    rintro q (rfl | earlier)
    · exact le_rfl
    · exact (tracks.greatest.2 earlier).trans above.le
  start := tracks.start.trans above.le
  tracked := by
    have tracked := tracks.tracked
    have start := tracks.start
    simp only [advance,satAdd,u16Max]
    omega
  mask i inside := by
    have old : (if delta ≤ 16 then wrappingShl 1#16 (delta - 1) else 0#16).getLsbD i = true ↔ i + 1 = delta := by
      split
      · rw [getLsbD_wrappingShl_one (by omega) inside]
        omega
      · exact iff_of_false (by simp) (by omega)
    have shifted : (if delta ≥ 16 then 0#16 else d.receivedMask <<< delta).getLsbD i = true ↔
        delta ≤ i ∧ p - 1 - i ∈ received := by
      split
      · exact iff_of_false (by simp) (by omega)
      · rw [BitVec.getLsbD_shiftLeft]
        by_cases far : delta ≤ i
        · have place : highest - 1 - (i - delta : Nat) = p - 1 - i := by omega
          have bit := tracks.mask (i - delta) (by omega)
          rw [place] at bit
          simp [inside,far,bit]
        · simp [far]
    rw [advance,BitVec.getLsbD_or,Bool.or_eq_true,shifted,old,Set.mem_insert_iff]
    constructor
    · rintro (⟨_,member⟩ | last)
      · exact .inr member
      · have place : p - 1 - i = highest := by omega
        rw [place]
        exact .inr tracks.greatest.1
    · rintro (same | member)
      · omega
      · have below := tracks.greatest.2 member
        by_cases last : i + 1 = delta
        · exact .inr last
        · exact .inl ⟨by omega,member⟩

/-- A position below the highest: it is marked when the window still holds it. -/
theorem markLate_tracks (tracks : Tracks d first highest received) {p : Int} {back : Nat} (below : p < highest)
    (distance : (back : Int) = highest - p) : Tracks (d.markLate back) first highest (insert p received) where
  highestSeq := by
    rw [markLate]
    split <;> exact tracks.highestSeq
  lastReceivedSeq := by
    rw [markLate]
    split <;> exact tracks.lastReceivedSeq
  greatest := by
    refine ⟨Set.mem_insert_of_mem _ tracks.greatest.1,?_⟩
    rintro q (rfl | earlier)
    · exact below.le
    · exact tracks.greatest.2 earlier
  start := tracks.start
  tracked := by
    rw [markLate]
    split <;> exact tracks.tracked
  mask i inside := by
    rw [Set.mem_insert_iff,← tracks.mask i inside,markLate]
    split
    · rw [BitVec.getLsbD_or,Bool.or_eq_true,getLsbD_wrappingShl_one (by omega) inside,or_comm]
      exact or_congr_left (by omega)
    · exact (or_iff_right (by omega)).symm

theorem record_tracks (tracks : Tracks d first highest received) {p : Int} (near : |p - highest| ≤ 32767) :
    Tracks (d.record (seqOf p)) first (max highest p) (insert p received) := by
  have delta := toNat_seqOf_sub p highest
  have back := toNat_seqOf_sub highest p
  obtain ⟨low,high⟩ := abs_le.mp near
  simp only [record,tracks.highestSeq]
  rcases lt_trichotomy p highest with below | rfl | above
  · rw [if_neg (by omega),if_neg (by omega),max_eq_left below.le]
    exact markLate_tracks tracks below (by omega)
  · rw [if_neg (by omega),if_pos (by omega),max_self,Set.insert_eq_of_mem tracks.greatest.1]
    exact ⟨rfl,rfl,tracks.greatest,tracks.start,tracks.tracked,tracks.mask⟩
  · rw [if_pos (by omega),max_eq_right above.le]
    exact advance_tracks tracks above (by omega)

end Step

/-! The report. -/

/-- What the report says, against what was received. -/
structure Exact (first highest : Int) (received : Set Int) (report : GapReport) : Prop where
  missingSeqs : ∃ positions : List Int, positions.Pairwise (· > ·) ∧
    (∀ p, p ∈ positions ↔ Missing first highest received p) ∧ report.missingSeqs = positions.map seqOf
  nackBitmap : ∀ i : Nat, report.nackBitmap.getLsbD i = true ↔ Missing first highest received (highest - 1 - i)
  consecutiveLoss : (∀ j < report.consecutiveLoss, Missing first highest received (highest - 1 - j)) ∧
    ¬Missing first highest received (highest - 1 - report.consecutiveLoss)
  frameGap : report.frameGap = 0

theorem trailingZeros_le (x : BitVec 16) : trailingZeros x ≤ 16 := by
  have bound := @List.findIdx_le_length _ x.getLsbD (List.range 16)
  rwa [List.length_range] at bound

theorem getLsbD_of_lt_trailingZeros {x : BitVec 16} {j : Nat} (before : j < trailingZeros x) : x.getLsbD j = false := by
  have clear := List.not_of_lt_findIdx before
  rwa [List.getElem_range] at clear

theorem getLsbD_trailingZeros {x : BitVec 16} (some : trailingZeros x < 16) : x.getLsbD (trailingZeros x) = true := by
  have set := @List.findIdx_getElem _ x.getLsbD (List.range 16) (by rwa [List.length_range])
  rwa [List.getElem_range] at set

theorem takeWhile_range {tracked : Nat} (bound : tracked ≤ 16) :
    (List.range 16).takeWhile (· < tracked) = List.range tracked := by
  have all : ∀ tracked : Fin 17, (List.range 16).takeWhile (· < tracked.val) = List.range tracked := by decide
  exact all ⟨tracked,by omega⟩

theorem shiftRight_and_one (x : BitVec 16) (i : Nat) : (x >>> i) &&& 1#16 = 1#16 ↔ x.getLsbD i = true := by
  rw [BitVec.and_one_eq_setWidth_ofBool_getLsbD,BitVec.getLsbD_ushiftRight,Nat.add_zero]
  cases x.getLsbD i <;> decide

theorem seqOf_below (highest : Int) (i : Nat) : seqOf (highest - 1 - i) = seqOf highest - (1#16 + BitVec.ofNat 16 i) := by
  apply BitVec.eq_of_toNat_eq
  simp only [seqOf,BitVec.toNat_sub,BitVec.toNat_add,BitVec.toNat_ofInt,BitVec.toNat_ofNat]
  omega

section Report

variable {d : GapDetector} {first highest : Int} {received : Set Int} (tracks : Tracks d first highest received)

include tracks

theorem nackBitmap_iff (i : Nat) : (~~~d.receivedMask &&& trackedMask d.seqsTracked).getLsbD i = true ↔
    Missing first highest received (highest - 1 - i) := by
  have tracked := tracks.tracked
  by_cases inside : i < 16
  · have bit := tracks.mask i inside
    rw [BitVec.getLsbD_and,BitVec.getLsbD_not,Bool.and_eq_true,getLsbD_trackedMask inside,Missing,← bit]
    simp only [inside,decide_true,Bool.true_and,Bool.not_eq_true',← Bool.not_eq_true]
    constructor
    · rintro ⟨clear,candidate⟩
      exact ⟨by omega,by omega,clear⟩
    · rintro ⟨low,_,clear⟩
      exact ⟨clear,by omega⟩
  · refine iff_of_false (by simp [BitVec.getLsbD_of_ge _ _ (Nat.not_lt.mp inside)]) ?_
    rintro ⟨low,_⟩
    omega

theorem missing_eq : ∃ positions : List Int, positions.Pairwise (· > ·) ∧
    (∀ p, p ∈ positions ↔ Missing first highest received p) ∧
    missing (seqOf highest) d.seqsTracked (~~~d.receivedMask &&& trackedMask d.seqsTracked) = positions.map seqOf := by
  have tracked := tracks.tracked
  let nack := ~~~d.receivedMask &&& trackedMask d.seqsTracked
  let position (i : Nat) : Int := highest - 1 - i
  refine ⟨((List.range d.seqsTracked).filter nack.getLsbD).map position,?_,?_,?_⟩
  · rw [List.pairwise_map]
    apply (List.pairwise_lt_range.filter _).imp
    intro i j before
    simp only [position]
    omega
  · intro p
    simp only [List.mem_map,List.mem_filter,List.mem_range,position]
    constructor
    · rintro ⟨i,⟨_,bit⟩,rfl⟩
      exact (nackBitmap_iff tracks i).mp bit
    · intro missing
      have place : highest - 1 - (highest - 1 - p).toNat = p := by
        have := missing.2.1
        omega
      refine ⟨(highest - 1 - p).toNat,⟨?_,(nackBitmap_iff tracks _).mpr (by rwa [place])⟩,place⟩
      have := missing.1
      omega
  · rw [missing,takeWhile_range (by omega),List.map_map]
    have same (i : Nat) : (seqOf ∘ position) i = seqOf highest - (1#16 + BitVec.ofNat 16 i) := seqOf_below highest i
    simp only [shiftRight_and_one,funext same]
    rw [← List.filterMap_eq_map,List.filterMap_filter]
    rfl

theorem consecutiveLoss_run :
    (∀ j < min (trailingZeros d.receivedMask) d.seqsTracked, Missing first highest received (highest - 1 - j)) ∧
    ¬Missing first highest received (highest - 1 - (min (trailingZeros d.receivedMask) d.seqsTracked : Nat)) := by
  have tracked := tracks.tracked
  have bound := trailingZeros_le d.receivedMask
  constructor
  · intro j before
    have clear := getLsbD_of_lt_trailingZeros (show j < trailingZeros d.receivedMask by omega)
    refine ⟨by omega,by omega,?_⟩
    rw [← tracks.mask j (by omega),clear]
    exact Bool.false_ne_true
  · rintro ⟨low,_,never⟩
    have ends : trailingZeros d.receivedMask < d.seqsTracked := by omega
    rw [min_eq_left ends.le] at never
    exact never ((tracks.mask _ (by omega)).mp (getLsbD_trailingZeros (by omega)))

theorem buildReport_exact : Exact first highest received d.buildReport := by
  have report : d.buildReport = ⟨min (trailingZeros d.receivedMask) d.seqsTracked,0,
      ~~~d.receivedMask &&& trackedMask d.seqsTracked,
      missing (seqOf highest) d.seqsTracked (~~~d.receivedMask &&& trackedMask d.seqsTracked)⟩ := by
    simp [buildReport,tracks.highestSeq,tracks.lastReceivedSeq]
  rw [report]
  exact ⟨missing_eq tracks,nackBitmap_iff tracks,consecutiveLoss_run tracks,rfl⟩

end Report

/-! Whole runs. -/

/-- Each packet is at most 32767 positions away from the highest before it. -/
def Near : Int → List Int → Prop
  | _, [] => True
  | highest, p :: later => |p - highest| ≤ 32767 ∧ Near (max highest p) later

theorem near_append {highest : Int} {seen later : List Int} :
    Near highest (seen ++ later) ↔ Near highest seen ∧ Near (seen.foldl max highest) later := by
  induction seen generalizing highest with
  | nil => simp [Near]
  | cons p seen ih => simp [Near,ih,and_assoc]

def reportAfter (positions : List Int) : Option GapReport :=
  (trace onReceive new (positions.map seqOf)).getLast?.map Event.response

theorem reportAfter_eq {positions : List Int} (some : positions ≠ []) :
    reportAfter positions = .some (final onReceive new (positions.map seqOf)).buildReport := by
  obtain ⟨earlier,p,rfl⟩ := (List.eq_nil_or_concat positions).resolve_left some
  rw [List.concat_eq_append,reportAfter,List.map_append,trace_append,final_append,List.map_singleton,trace,trace,
    List.getLast?_concat]
  rfl

theorem final_tracks {first : Int} {later : List Int} (near : Near first later) :
    Tracks (final onReceive new ((first :: later).map seqOf)) first (later.foldl max first) {p | p ∈ first :: later} := by
  induction later using List.reverseRecOn with
  | nil =>
    have single : {p | p ∈ [first]} = ({first} : Set Int) := by simp
    rw [single]
    exact record_first first
  | append_singleton later p ih =>
    obtain ⟨earlier,last⟩ := near_append.mp near
    have insert' : {q | q ∈ first :: (later ++ [p])} = insert p {q | q ∈ first :: later} := by
      ext q
      simp only [Set.mem_ofPred_eq,Set.mem_insert_iff,List.mem_cons,List.mem_append,List.not_mem_nil,or_false]
      tauto
    rw [insert',← List.cons_append,List.map_append,final_append,List.foldl_append]
    exact record_tracks (ih earlier) last.1

/-- After each packet the report names exactly the positions that are missing. -/
theorem gap_reports_exact (first : Int) (later : List Int) (near : Near first later) (seen : List Int)
    (soFar : seen <+: later) : ∃ report, reportAfter (first :: seen) = some report ∧
      Exact first (seen.foldl max first) {p | p ∈ first :: seen} report := by
  obtain ⟨rest,rfl⟩ := soFar
  exact ⟨_,reportAfter_eq (List.cons_ne_nil _ _),buildReport_exact (final_tracks (near_append.mp near).1)⟩

/-- Across the wrap of the sequence numbers, with a late packet and a gap. -/
theorem wrap_report_exact : reportAfter [65534,65537,65535] = some ⟨1,0,1#16,[0#16]⟩ ∧
    ∃ report, reportAfter [65534,65537,65535] = some report ∧
      Exact 65534 65537 {p | p ∈ [65534,65537,65535]} report := by
  refine ⟨by decide +kernel,?_⟩
  have near : Near 65534 [65537,65535] := by simp [Near]
  exact gap_reports_exact 65534 [65537,65535] near [65537,65535] (List.prefix_refl _)

end GapDetector

end Streamhaul
