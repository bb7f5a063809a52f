import Streamhaul.Machine

/-! Modes with dwell times. A mode is left when a condition has held for a number of readings in a row, all of
them taken since the mode was entered. The specification keeps those readings; an implementation keeps counters.
And moments that keep a distance from each other. -/
namespace Streamhaul.Dwell

variable {Mode Reading : Type}

/-- How many of the last readings, without a break, meet a condition. -/
def streak (holds : Reading → Bool) (readings : List Reading) : Nat := (readings.reverse.takeWhile holds).length

@[simp] theorem streak_nil (holds : Reading → Bool) : streak holds [] = 0 := rfl

theorem streak_concat (holds : Reading → Bool) (readings : List Reading) (last : Reading) :
    streak holds (readings ++ [last]) = if holds last then streak holds readings + 1 else 0 := by
  simp only [streak,List.reverse_append,List.reverse_singleton,List.singleton_append,List.takeWhile_cons]
  split <;> rfl

theorem streak_le_length (holds : Reading → Bool) (readings : List Reading) :
    streak holds readings ≤ readings.length := by
  have front : readings.reverse.takeWhile holds <+: readings.reverse := List.takeWhile_prefix ..
  simpa [streak] using front.length_le

structure Exit (Mode Reading : Type) where
  holds : Reading → Bool
  dwell : Nat
  target : Mode

/-- The mode, and what was read since it was entered. -/
structure Stay (Mode Reading : Type) where
  mode : Mode
  since : List Reading

def Exit.fires (exit : Exit Mode Reading) (since : List Reading) : Bool := exit.dwell ≤ streak exit.holds since

/-- One reading. The first way out whose condition has held long enough is taken. -/
def next (exits : Mode → List (Exit Mode Reading)) (stay : Stay Mode Reading) (reading : Reading) :
    Option (Exit Mode Reading) × Stay Mode Reading :=
  match (exits stay.mode).find? (fun exit => exit.fires (stay.since ++ [reading])) with
  | some exit => (some exit,⟨exit.target,[]⟩)
  | none => (none,⟨stay.mode,stay.since ++ [reading]⟩)

def taken (exits : Mode → List (Exit Mode Reading)) (stay : Stay Mode Reading) (readings : List Reading) :
    List (Exit Mode Reading) :=
  (Machine.trace (next exits) stay readings).filterMap Machine.Event.response

theorem taken_paid (exits : Mode → List (Exit Mode Reading)) (stay : Stay Mode Reading) (readings : List Reading) :
    ((taken exits stay readings).map Exit.dwell).sum + (Machine.final (next exits) stay readings).since.length ≤
      stay.since.length + readings.length := by
  induction readings generalizing stay with
  | nil => simp [taken,Machine.trace,Machine.final]
  | cons reading rest ih =>
    have later := ih (next exits stay reading).2
    have now : ((next exits stay reading).1.toList.map Exit.dwell).sum + (next exits stay reading).2.since.length ≤
        stay.since.length + 1 := by
      unfold next
      cases found : (exits stay.mode).find? (fun exit => exit.fires (stay.since ++ [reading])) with
      | none => simp
      | some exit =>
        have fired := List.find?_some found
        have long := streak_le_length exit.holds (stay.since ++ [reading])
        simp only [Exit.fires,decide_eq_true_eq] at fired
        simp only [List.length_append,List.length_singleton] at long
        simp only [Option.toList_some,List.map_cons,List.map_nil,List.sum_cons,List.sum_nil,List.length_nil]
        omega
    have split : taken exits stay (reading :: rest) =
        (next exits stay reading).1.toList ++ taken exits (next exits stay reading).2 rest :=
      Machine.filterMap_trace_cons _ _ _ _ _
    rw [split,List.map_append,List.sum_append,Machine.final,List.length_cons]
    omega

theorem next_cases (exits : Mode → List (Exit Mode Reading)) (stay : Stay Mode Reading) (reading : Reading) :
    (next exits stay reading).1 = none ∧ (next exits stay reading).2.mode = stay.mode ∨
    ∃ exit ∈ exits stay.mode, (next exits stay reading).1 = some exit ∧ (next exits stay reading).2.mode = exit.target := by
  unfold next
  cases found : (exits stay.mode).find? (fun exit => exit.fires (stay.since ++ [reading])) with
  | none => exact .inl ⟨rfl,rfl⟩
  | some exit => exact .inr ⟨exit,List.mem_of_find?_eq_some found,rfl,rfl⟩

section Changes

variable [DecidableEq Mode]

def changes : Mode → List Mode → List (Mode × Mode)
  | _, [] => []
  | mode, after :: rest => if mode = after then changes after rest else (mode,after) :: changes after rest

def modes (exits : Mode → List (Exit Mode Reading)) (stay : Stay Mode Reading) (readings : List Reading) : List Mode :=
  (Machine.trace (next exits) stay readings).map (fun e => e.after.mode)

/-- The changes of a run are ways out that were taken, and cost no more than these. -/
theorem changes_taken (exits : Mode → List (Exit Mode Reading)) (cost : Mode → Mode → Nat)
    (priced : ∀ mode, ∀ exit ∈ exits mode, cost mode exit.target ≤ exit.dwell)
    (stay : Stay Mode Reading) (readings : List Reading) :
    (∀ change ∈ changes stay.mode (modes exits stay readings), ∃ exit ∈ exits change.1, exit.target = change.2) ∧
      ((changes stay.mode (modes exits stay readings)).map (fun change => cost change.1 change.2)).sum ≤
        ((taken exits stay readings).map Exit.dwell).sum := by
  induction readings generalizing stay with
  | nil => simp [modes,Machine.trace,changes]
  | cons reading rest ih =>
    obtain ⟨known,paid⟩ := ih (next exits stay reading).2
    have split : taken exits stay (reading :: rest) =
        (next exits stay reading).1.toList ++ taken exits (next exits stay reading).2 rest :=
      Machine.filterMap_trace_cons _ _ _ _ _
    have shown : modes exits stay (reading :: rest) =
        (next exits stay reading).2.mode :: modes exits (next exits stay reading).2 rest := rfl
    rw [shown,split,changes,List.map_append,List.sum_append]
    rcases next_cases exits stay reading with ⟨stayed,same⟩ | ⟨exit,member,left,target⟩
    · rw [if_pos same.symm,stayed]
      exact ⟨known,by simpa using paid⟩
    · by_cases same : stay.mode = (next exits stay reading).2.mode
      · rw [if_pos same]
        exact ⟨known,paid.trans (Nat.le_add_left _ _)⟩
      · rw [if_neg same,left]
        refine ⟨List.forall_mem_cons.mpr ⟨⟨exit,member,target.symm⟩,known⟩,?_⟩
        have price := priced stay.mode exit member
        rw [← target] at price
        simp only [List.map_cons,List.sum_cons,Option.toList_some,List.map_nil,List.sum_nil]
        omega

end Changes

section Spaced

variable {gap : Nat} {moments : List Nat}

end Spaced

end Streamhaul.Dwell
