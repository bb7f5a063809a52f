import Mathlib.Tactic

/-! An anti-replay window over a set of sequence numbers, and the word arrays that
implement such sets as bitmaps. Nothing here fixes a width or a word size. -/
namespace Streamhaul.SlidingWindow

/-- A number is admitted when it is new and no accepted number is `width` or more above it. -/
def Admits (width : Nat) (accepted : Set Nat) (s : Nat) : Prop :=
  s ∉ accepted ∧ ∀ a ∈ accepted, a < s + width

theorem admits_empty (width s : Nat) : Admits width ∅ s := by simp [Admits]

/-- Relative to the highest accepted number the window is one interval with holes. -/
theorem admits_iff_of_greatest {width high s : Nat} {accepted : Set Nat}
    (greatest : IsGreatest accepted high) :
    Admits width accepted s ↔ high < s + width ∧ (high < s ∨ s ∉ accepted) := by
  constructor
  · intro admitted
    exact ⟨admitted.2 high greatest.1,.inr admitted.1⟩
  · rintro ⟨near,fresh⟩
    refine ⟨?_,fun a member => lt_of_le_of_lt (greatest.2 member) near⟩
    rcases fresh with above | fresh
    · exact fun member => absurd (greatest.2 member) (not_le.mpr above)
    · exact fresh

section Words

variable {n w : Nat}

def word (bits : Vector (BitVec w) n) (i : Nat) : BitVec w := bits[i]?.getD 0

/-- Linear bit `i` is bit `i % w` of word `i / w`. -/
def bit (bits : Vector (BitVec w) n) (i : Nat) : Bool := (word bits (i / w)).getLsbD (i % w)

theorem word_setIfInBounds (bits : Vector (BitVec w) n) (i j : Nat) (x : BitVec w) (inside : j < n) :
    word (bits.setIfInBounds i x) j = if i = j then x else word bits j := by
  unfold word
  by_cases same : i = j
  · subst same; simp [inside]
  · simp [same]

/-- One in-place pass over the words, from the highest index of `count` down to zero. -/
def sweep (f : Vector (BitVec w) n → Nat → BitVec w) (count : Nat) (bits : Vector (BitVec w) n) :
    Vector (BitVec w) n :=
  (List.range count).reverse.foldl (fun acc i => acc.setIfInBounds i (f acc i)) bits

theorem sweep_succ (f : Vector (BitVec w) n → Nat → BitVec w) (count : Nat)
    (bits : Vector (BitVec w) n) :
    sweep f (count + 1) bits = sweep f count (bits.setIfInBounds count (f bits count)) := by
  simp [sweep,List.range_succ]

/-- When each new word reads only words at or below its own index, a downward pass
never reads a word that it has already overwritten. -/
theorem word_sweep (f : Vector (BitVec w) n → Nat → BitVec w)
    (reads : ∀ a b i, (∀ j, j ≤ i → word a j = word b j) → f a i = f b i)
    (count : Nat) (bits : Vector (BitVec w) n) (i : Nat) (inside : i < n) :
    word (sweep f count bits) i = if i < count then f bits i else word bits i := by
  induction count generalizing bits with
  | zero => simp [sweep]
  | succ count ih =>
    have below (j : Nat) (hj : j < count) (hn : j < n) :
        word (bits.setIfInBounds count (f bits count)) j = word bits j := by
      rw [word_setIfInBounds _ _ _ _ hn,if_neg (by omega)]
    rw [sweep_succ,ih]
    rcases Nat.lt_trichotomy i count with lt | rfl | gt
    · rw [if_pos lt,if_pos (by omega)]
      apply reads
      intro j before
      apply below j <;> omega
    · rw [if_neg (lt_irrefl _),if_pos (by omega),word_setIfInBounds _ _ _ _ inside,if_pos rfl]
    · rw [if_neg (by omega),if_neg (by omega),word_setIfInBounds _ _ _ _ inside,if_neg (by omega)]

end Words

end Streamhaul.SlidingWindow
