import Streamhaul.CryptoPrimitives
import Streamhaul.SlidingWindow

/-! The bitmap replay window of one `(channel, direction, epoch)`, and its
refinement of a set of accepted sequence numbers. -/
namespace Streamhaul

open SlidingWindow

def replayWindow : Nat := 1024

def replayWindowWords : Nat := replayWindow / 64

/-- Linear bit `i` stands for `high - i`; bit zero is the highest accepted number. -/
structure ReplayWindow where
  high : Nat
  bits : Vector (BitVec 64) replayWindowWords
  initialized : Bool
  deriving DecidableEq

namespace ReplayWindow

def new : ReplayWindow := ⟨0,Vector.replicate replayWindowWords 0#64,false⟩

def check (w : ReplayWindow) (seq : Nat) : Except CryptoError Unit :=
  if !w.initialized then .ok ()
  else if seq < w.high - (replayWindow - 1) then .error .replayedFrame
  else if seq ≤ w.high then
    let offset := w.high - seq
    match w.bits[offset / 64]? with
    | some x => if (x >>> (offset % 64)) &&& 1#64 = 1#64 then .error .replayedFrame else .ok ()
    | none => .ok ()
  else .ok ()

/-- Word-level slide, then bit-level slide with the carry from the next lower word. -/
def shiftBits (bits : Vector (BitVec 64) replayWindowWords) (n : Nat) :
    Vector (BitVec 64) replayWindowWords :=
  let wordShift := n / 64
  let bitShift := n % 64
  let slid := if wordShift > 0 then
      sweep (fun bits i => if wordShift ≤ i then word bits (i - wordShift) else 0)
        replayWindowWords bits
    else bits
  if bitShift > 0 then
    let antiShift := 64 - bitShift
    sweep (fun bits i =>
      let shifted := word bits i <<< bitShift
      let carry := if i > 0 then word bits (i - 1) >>> antiShift else 0
      shifted ||| carry) replayWindowWords slid
  else slid

def mark (bits : Vector (BitVec 64) replayWindowWords) (offset : Nat) :
    Vector (BitVec 64) replayWindowWords :=
  bits.setIfInBounds (offset / 64) (word bits (offset / 64) ||| (1#64 <<< (offset % 64)))

def accept (w : ReplayWindow) (seq : Nat) : ReplayWindow :=
  if !w.initialized then ⟨seq,mark w.bits 0,true⟩
  else if w.high < seq then
    let shift := seq - w.high
    let bits := if replayWindow ≤ shift then Vector.replicate replayWindowWords 0#64
      else shiftBits w.bits shift
    ⟨seq,mark bits 0,w.initialized⟩
  else ⟨w.high,mark w.bits (w.high - seq),w.initialized⟩

theorem bit_mark (bits : Vector (BitVec 64) replayWindowWords) (offset i : Nat)
    (inside : i < replayWindow) :
    bit (mark bits offset) i = (bit bits i || decide (i = offset)) := by
  have index : i / 64 < replayWindowWords := by simp [replayWindowWords,replayWindow] at *; omega
  rw [bit,bit,mark,word_setIfInBounds _ _ _ _ index]
  split
  · next same =>
    have position : i % 64 < 64 := Nat.mod_lt _ (by decide)
    rw [same,BitVec.getLsbD_or]
    congr 1
    by_cases eq : i = offset
    · subst eq; simp [position]
    · have apart : ¬(i % 64 = offset % 64) := by omega
      simp only [eq,decide_false,BitVec.getLsbD_shiftLeft,BitVec.getLsbD_one]
      simp [position]
      omega
  · next apart =>
    have : i ≠ offset := by rintro rfl; exact apart rfl
    simp [this]

/-- The word-level slide alone; a zero shift leaves the array as it is. -/
theorem word_slid (bits : Vector (BitVec 64) replayWindowWords) (shift j : Nat)
    (inside : j < replayWindowWords) :
    word (if shift > 0 then
        sweep (fun bits i => if shift ≤ i then word bits (i - shift) else 0) replayWindowWords bits
      else bits) j = if shift ≤ j then word bits (j - shift) else 0 := by
  split
  · rw [word_sweep _ _ _ _ _ inside,if_pos inside]
    intro a b i agree
    simp only [agree (i - shift) (Nat.sub_le _ _)]
  · next zero =>
    have : shift = 0 := by omega
    simp [this]

/-- A word shifted left takes its low bits from the top of the word carried in. -/
theorem getLsbD_carry (x y : BitVec 64) (shift p : Nat) (shifts : 0 < shift) (below : shift < 64)
    (inside : p < 64) :
    (x <<< shift ||| y >>> (64 - shift)).getLsbD p =
      if p < shift then y.getLsbD (64 - shift + p) else x.getLsbD (p - shift) := by
  simp only [BitVec.getLsbD_or,BitVec.getLsbD_shiftLeft,BitVec.getLsbD_ushiftRight,inside,
    decide_true,Bool.true_and]
  split
  · next low => simp [low]
  · next high =>
    rw [BitVec.getLsbD_of_ge y _ (by omega)]
    simp [high]

/-- Sliding by `n` moves the bit of every number to its new offset and clears the first `n`. -/
theorem bit_shiftBits (bits : Vector (BitVec 64) replayWindowWords) (n i : Nat)
    (inside : i < replayWindow) :
    bit (shiftBits bits n) i = (decide (n ≤ i) && bit bits (i - n)) := by
  have index : i / 64 < replayWindowWords := by simp [replayWindowWords,replayWindow] at *; omega
  have position : i % 64 < 64 := Nat.mod_lt _ (by decide)
  have slid := word_slid bits (n / 64)
  rw [bit,shiftBits]
  generalize (if n / 64 > 0 then
      sweep (fun bits i => if n / 64 ≤ i then word bits (i - n / 64) else 0) replayWindowWords bits
    else bits) = moved at slid
  by_cases aligned : n % 64 > 0
  · rw [if_pos aligned,word_sweep _ _ _ _ _ index,if_pos index]
    · have carried : (if i / 64 > 0 then word moved (i / 64 - 1) >>> (64 - n % 64) else 0) =
          (if n / 64 + 1 ≤ i / 64 then word bits (i / 64 - 1 - n / 64) else 0) >>> (64 - n % 64) := by
        by_cases first : i / 64 = 0
        · simp [first]
        · rw [if_pos (by omega),slid _ (by omega)]
          congr 1
          exact if_congr (by omega) rfl rfl
      rw [carried,getLsbD_carry _ _ _ _ aligned (Nat.mod_lt _ (by decide)) position,slid _ index]
      by_cases low : i % 64 < n % 64
      · rw [if_pos low]
        by_cases reach : n ≤ i
        · have wordIndex : (i - n) / 64 = i / 64 - 1 - n / 64 := by omega
          have bitIndex : (i - n) % 64 = 64 - n % 64 + i % 64 := by omega
          rw [if_pos (by omega),bit,wordIndex,bitIndex,decide_eq_true reach,Bool.true_and]
        · rw [if_neg (by omega)]
          simp [reach]
      · rw [if_neg low]
        by_cases reach : n ≤ i
        · have wordIndex : (i - n) / 64 = i / 64 - n / 64 := by omega
          have bitIndex : (i - n) % 64 = i % 64 - n % 64 := by omega
          rw [if_pos (by omega),bit,wordIndex,bitIndex,decide_eq_true reach,Bool.true_and]
        · rw [if_neg (by omega)]
          simp [reach]
    · intro a b j agree
      simp only [agree j le_rfl,agree (j - 1) (Nat.sub_le _ _)]
  · rw [if_neg aligned,slid _ index]
    by_cases reach : n ≤ i
    · have wordIndex : (i - n) / 64 = i / 64 - n / 64 := by omega
      have bitIndex : (i - n) % 64 = i % 64 := by omega
      rw [if_pos (by omega),bit,wordIndex,bitIndex,decide_eq_true reach,Bool.true_and]
    · rw [if_neg (by omega)]
      simp [reach]

@[simp] theorem bit_replicate (i : Nat) :
    bit (Vector.replicate replayWindowWords 0#64) i = false := by
  unfold bit word
  by_cases h : i / 64 < replayWindowWords <;> simp [h]

/-- The bitmap stands for the set of accepted numbers. Outside the window it keeps
no information, which is why only numbers near `high` are constrained. -/
structure Refines (w : ReplayWindow) (accepted : Set Nat) : Prop where
  fresh : w.initialized = false → accepted = ∅ ∧ ∀ i, bit w.bits i = false
  greatest : w.initialized = true → IsGreatest accepted w.high
  marked : w.initialized = true → ∀ i, i < replayWindow →
    (bit w.bits i = true ↔ i ≤ w.high ∧ w.high - i ∈ accepted)

theorem new_refines : Refines new ∅ := by
  constructor <;> simp [new]

theorem check_bit (w : ReplayWindow) (seq : Nat) (initialized : w.initialized = true)
    (near : w.high < seq + replayWindow) (below : seq ≤ w.high) :
    w.check seq = if bit w.bits (w.high - seq) then .error .replayedFrame else .ok () := by
  have index : (w.high - seq) / 64 < replayWindowWords := by
    simp [replayWindowWords,replayWindow] at *; omega
  have floor : ¬ seq < w.high - (replayWindow - 1) := by simp [replayWindow] at *; omega
  have low (x : BitVec 64) (p : Nat) : ((x >>> p) &&& 1#64 = 1#64) ↔ x.getLsbD p = true := by
    rw [BitVec.and_one_eq_setWidth_ofBool_getLsbD]
    cases h : x.getLsbD p <;> simp [h]
  simp only [check,initialized,floor,below,Bool.not_true,Bool.false_eq_true,↓reduceIte,
    Vector.getElem?_eq_getElem index,low]
  simp [bit,word,index]

/-- The check admits exactly the numbers that the set-based window admits. -/
theorem check_ok_iff (w : ReplayWindow) (accepted : Set Nat) (refines : Refines w accepted)
    (seq : Nat) : w.check seq = .ok () ↔ Admits replayWindow accepted seq := by
  cases initialized : w.initialized with
  | false =>
    rw [(refines.fresh initialized).1]
    simp [check,initialized,admits_empty]
  | true =>
    rw [admits_iff_of_greatest (refines.greatest initialized)]
    by_cases near : w.high < seq + replayWindow
    · by_cases above : w.high < seq
      · simp [check,initialized,near,above,Nat.not_le.mpr above]
        omega
      · have below : seq ≤ w.high := Nat.le_of_not_lt above
        have mark := refines.marked initialized (w.high - seq) (by omega)
        rw [Nat.sub_sub_self below] at mark
        rw [check_bit w seq initialized near below]
        cases h : bit w.bits (w.high - seq) <;> simp_all
    · have floor : seq < w.high - (replayWindow - 1) := by simp [replayWindow] at *; omega
      simp [check,initialized,floor,near]

theorem accept_first (w : ReplayWindow) (seq : Nat) (initialized : w.initialized = false)
    (clear : ∀ i, bit w.bits i = false) : Refines (w.accept seq) {seq} := by
  constructor
  · simp [accept,initialized]
  · simp [accept,initialized]
  · intro _ i inside
    simp only [accept,initialized,Bool.not_false,↓reduceIte,bit_mark _ _ _ inside,clear]
    simp
    omega

theorem bit_slid (w : ReplayWindow) (seq i : Nat) (inside : i < replayWindow) :
    bit (if replayWindow ≤ seq - w.high then Vector.replicate replayWindowWords 0#64
      else shiftBits w.bits (seq - w.high)) i =
    (decide (seq - w.high ≤ i) && bit w.bits (i - (seq - w.high))) := by
  split
  · rw [bit_replicate]
    simp
    omega
  · exact bit_shiftBits _ _ _ inside

theorem accept_above (w : ReplayWindow) (accepted : Set Nat) (refines : Refines w accepted) (seq : Nat)
    (initialized : w.initialized = true) (above : w.high < seq) :
    Refines (w.accept seq) (insert seq accepted) := by
  have greatest := refines.greatest initialized
  have marked := refines.marked initialized
  constructor
  · simp [accept,initialized,above]
  · intro _
    simp only [accept,initialized,above,Bool.not_true,Bool.false_eq_true,↓reduceIte]
    refine ⟨Set.mem_insert _ _,?_⟩
    rintro a (rfl | member)
    · exact le_rfl
    · exact le_trans (greatest.2 member) (Nat.le_of_lt above)
  · intro _ i inside
    simp only [accept,initialized,above,Bool.not_true,Bool.false_eq_true,↓reduceIte,
      bit_mark _ _ _ inside,bit_slid w seq i inside,Bool.or_eq_true,Bool.and_eq_true,decide_eq_true_eq,
      Set.mem_insert_iff]
    constructor
    · rintro (⟨reach,old⟩ | rfl)
      · obtain ⟨low,member⟩ := (marked _ (by omega)).mp old
        have same : seq - i = w.high - (i - (seq - w.high)) := by omega
        exact ⟨by omega,.inr (same ▸ member)⟩
      · exact ⟨Nat.zero_le _,.inl rfl⟩
    · rintro ⟨low,self | member⟩
      · apply Or.inr
        omega
      · have bound := greatest.2 member
        have same : w.high - (i - (seq - w.high)) = seq - i := by omega
        exact .inl ⟨by omega,(marked _ (by omega)).mpr ⟨by omega,same ▸ member⟩⟩

theorem accept_below (w : ReplayWindow) (accepted : Set Nat) (refines : Refines w accepted) (seq : Nat)
    (initialized : w.initialized = true) (below : seq ≤ w.high) : Refines (w.accept seq) (insert seq accepted) := by
  have greatest := refines.greatest initialized
  have marked := refines.marked initialized
  have above : ¬w.high < seq := Nat.not_lt.mpr below
  constructor
  · simp [accept,initialized,above]
  · intro _
    simp only [accept,initialized,above,Bool.not_true,Bool.false_eq_true,↓reduceIte]
    refine ⟨Set.mem_insert_of_mem _ greatest.1,?_⟩
    rintro a (rfl | member)
    · exact below
    · exact greatest.2 member
  · intro _ i inside
    simp only [accept,initialized,above,Bool.not_true,Bool.false_eq_true,↓reduceIte,
      bit_mark _ _ _ inside,Bool.or_eq_true,decide_eq_true_eq,marked i inside,Set.mem_insert_iff]
    constructor
    · rintro (⟨low,member⟩ | rfl)
      · exact ⟨low,.inr member⟩
      · exact ⟨Nat.sub_le _ _,.inl (Nat.sub_sub_self below)⟩
    · rintro ⟨low,self | member⟩
      · apply Or.inr
        omega
      · exact .inl ⟨low,member⟩

/-- Accepting a number adds exactly that number to the set. One below the window leaves no mark and needs none. -/
theorem accept_refines (w : ReplayWindow) (accepted : Set Nat) (refines : Refines w accepted) (seq : Nat) :
    Refines (w.accept seq) (insert seq accepted) := by
  cases initialized : w.initialized with
  | false =>
    obtain ⟨rfl,clear⟩ := refines.fresh initialized
    rw [insert_empty_eq]
    exact accept_first w seq initialized clear
  | true =>
    rcases Nat.lt_or_ge w.high seq with above | below
    · exact accept_above w accepted refines seq initialized above
    · exact accept_below w accepted refines seq initialized below

def acceptAll (w : ReplayWindow) (seqs : List Nat) : ReplayWindow := seqs.foldl accept w

theorem acceptAll_refines (seqs : List Nat) {w : ReplayWindow} {accepted : Set Nat} (refines : Refines w accepted) :
    Refines (w.acceptAll seqs) (accepted ∪ {a | a ∈ seqs}) := by
  induction seqs generalizing w accepted with
  | nil => simpa [acceptAll] using refines
  | cons seq rest ih =>
    have later := ih (accept_refines w accepted refines seq)
    have same : insert seq accepted ∪ {a | a ∈ rest} = accepted ∪ {a | a ∈ seq :: rest} := by
      ext a
      simp only [Set.mem_union,Set.mem_insert_iff,Set.mem_ofPred_eq,List.mem_cons]
      tauto
    exact same ▸ later

theorem check_error {w : ReplayWindow} {seq : Nat} (refused : w.check seq ≠ .ok ()) : w.check seq = .error .replayedFrame := by
  by_cases fresh : w.initialized = false
  · simp [check,fresh] at refused
  by_cases low : seq < w.high - (replayWindow - 1)
  · simp [check,fresh,low]
  by_cases above : w.high < seq
  · simp [check,fresh,low,Nat.not_le.mpr above] at refused
  have near : w.high < seq + replayWindow := by simp only [replayWindow] at *; omega
  rw [check_bit w seq (Bool.eq_true_of_not_eq_false fresh) near (Nat.not_lt.mp above)] at refused ⊢
  split_ifs at refused ⊢ with marked
  · rfl
  · exact absurd rfl refused

/-- The bitmap is a set: the check passes the numbers above the highest accepted one and those of the
window that were not accepted, whatever the distances the window was moved by. -/
theorem check_refines_set (seqs : List Nat) (s : Nat) :
    ((new.acceptAll seqs).check s = .ok () ↔
      seqs = [] ∨ ∃ high, seqs.max? = some high ∧ (high < s ∨ high - 1023 ≤ s ∧ s ∉ seqs)) ∧
    ((new.acceptAll seqs).check s ≠ .ok () → (new.acceptAll seqs).check s = .error .replayedFrame) ∧
    (∀ high, seqs.max? = some high → high - 1023 ≤ s →
      (s ∈ seqs → (new.acceptAll seqs).check s = .error .replayedFrame) ∧
      (s ∉ seqs → (new.acceptAll seqs).check s = .ok ())) := by
  have refines : Refines (new.acceptAll seqs) {a | a ∈ seqs} := by
    simpa using acceptAll_refines seqs new_refines
  have passes := check_ok_iff _ _ refines s
  have window : ∀ high, seqs.max? = some high →
      ((new.acceptAll seqs).check s = .ok () ↔ high < s ∨ high - 1023 ≤ s ∧ s ∉ seqs) := by
    intro high largest
    have greatest : IsGreatest {a | a ∈ seqs} high := List.max?_eq_some_iff.mp largest
    rw [passes,admits_iff_of_greatest greatest,Set.mem_ofPred_eq]
    have width : high < s + replayWindow ↔ high - 1023 ≤ s := by simp only [replayWindow]; omega
    rw [width]
    constructor
    · rintro ⟨near,above | fresh⟩
      · exact .inl above
      · exact .inr ⟨near,fresh⟩
    · rintro (above | ⟨near,fresh⟩)
      · exact ⟨by omega,.inl above⟩
      · exact ⟨near,.inr fresh⟩
  refine ⟨?_,check_error,fun high largest near => ⟨fun member => ?_,fun fresh => (window high largest).mpr (.inr ⟨near,fresh⟩)⟩⟩
  · cases largest : seqs.max? with
    | none =>
      obtain rfl := List.max?_eq_none_iff.mp largest
      simp [acceptAll,new,check]
    | some high =>
      rw [window high largest]
      constructor
      · exact fun passed => .inr ⟨high,rfl,passed⟩
      · rintro (rfl | ⟨other,same,passed⟩)
        · cases largest
        · cases same
          exact passed
  · apply check_error
    rw [Ne,passes]
    exact fun admitted => admitted.1 member

/-- The window moved by a word and a bit keeps what it has accepted. -/
theorem slid_window_check : (new.acceptAll [5,70]).check 5 = .error .replayedFrame ∧
    (new.acceptAll [5,70]).check 6 = .ok () := by
  have largest : [5,70].max? = some 70 := rfl
  exact ⟨((check_refines_set [5,70] 5).2.2 70 largest (by decide)).1 (by decide),
    ((check_refines_set [5,70] 6).2.2 70 largest (by decide)).2 (by decide)⟩

end ReplayWindow

end Streamhaul
