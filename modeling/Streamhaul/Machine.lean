import Mathlib.Tactic

/-! Finite runs of a deterministic machine. One call takes a state to a response
and a successor; a trace keeps every occurrence with the states around it. -/
namespace Streamhaul.Machine

variable {S C R H : Type}

structure Event (S C R : Type) where
  before : S
  call : C
  response : R
  after : S

def fire (step : S → C → R × S) (s : S) (call : C) : Event S C R :=
  ⟨s,call,(step s call).1,(step s call).2⟩

def final (step : S → C → R × S) : S → List C → S
  | s, [] => s
  | s, call :: rest => final step (step s call).2 rest

def trace (step : S → C → R × S) : S → List C → List (Event S C R)
  | _, [] => []
  | s, call :: rest => fire step s call :: trace step (step s call).2 rest

/-- Every state a run can end in, over all call sequences. -/
def Reachable (step : S → C → R × S) (initial s : S) : Prop :=
  ∃ calls, final step initial calls = s

theorem final_append (step : S → C → R × S) (s : S) (first second : List C) :
    final step s (first ++ second) = final step (final step s first) second := by
  induction first generalizing s with
  | nil => rfl
  | cons call rest ih => exact ih _

theorem trace_append (step : S → C → R × S) (s : S) (first second : List C) :
    trace step s (first ++ second) = trace step s first ++ trace step (final step s first) second := by
  induction first generalizing s with
  | nil => rfl
  | cons call rest ih => simp [trace,final,ih]

@[simp] theorem length_trace (step : S → C → R × S) (s : S) (calls : List C) :
    (trace step s calls).length = calls.length := by
  induction calls generalizing s with
  | nil => rfl
  | cons call rest ih => simp [trace,ih]

theorem mem_trace_call (step : S → C → R × S) (s : S) (calls : List C) (e : Event S C R)
    (member : e ∈ trace step s calls) : e.call ∈ calls := by
  induction calls generalizing s with
  | nil => simp [trace] at member
  | cons call rest ih =>
    rcases List.mem_cons.mp member with rfl | later
    · exact List.mem_cons_self
    · exact List.mem_cons_of_mem _ (ih _ later)

/-- A state predicate kept by every admitted step holds along the whole run. -/
theorem final_invariant (step : S → C → R × S) (admitted : S → C → Prop) (inv : S → Prop)
    (preserved : ∀ s call, admitted s call → inv s → inv (step s call).2)
    (s : S) (calls : List C) (initial : inv s)
    (allowed : ∀ e ∈ trace step s calls, admitted e.before e.call) :
    inv (final step s calls) := by
  induction calls generalizing s with
  | nil => exact initial
  | cons call rest ih =>
    apply ih
    · exact preserved s call (allowed _ List.mem_cons_self) initial
    · exact fun e member => allowed e (List.mem_cons_of_mem _ member)

/-- A state predicate that fails at the start of a run and holds at its end is switched on by one of its
steps. -/
theorem exists_switch (step : S → C → R × S) (p : S → Prop) (s : S) (calls : List C) (off : ¬p s)
    (on : p (final step s calls)) :
    ∃ front call back, calls = front ++ call :: back ∧ ¬p (final step s front) ∧
      p (step (final step s front) call).2 := by
  induction calls generalizing s with
  | nil => exact absurd on off
  | cons call rest ih =>
    by_cases now : p (step s call).2
    · exact ⟨[],call,rest,rfl,off,now⟩
    · obtain ⟨front,switch,back,rfl,before,after⟩ := ih _ now on
      exact ⟨call :: front,switch,back,rfl,before,after⟩

theorem exists_last_call (kind : C → Prop) (calls : List C) (some_call : ∃ call ∈ calls, kind call) :
    ∃ front call back, calls = front ++ call :: back ∧ kind call ∧ ∀ later ∈ back, ¬kind later := by
  induction calls with
  | nil => obtain ⟨call,member,_⟩ := some_call; cases member
  | cons first rest ih =>
    by_cases later : ∃ call ∈ rest, kind call
    · obtain ⟨front,call,back,rfl,here,none_later⟩ := ih later
      exact ⟨first :: front,call,back,rfl,here,none_later⟩
    · push Not at later
      obtain ⟨call,member,here⟩ := some_call
      rcases List.mem_cons.mp member with rfl | inside
      · exact ⟨[],call,rest,rfl,here,later⟩
      · exact absurd here (later call inside)

/-- Each occurrence of a run is a step taken from a state that keeps the invariant. -/
theorem trace_invariant (step : S → C → R × S) (admitted : S → C → Prop) (inv : S → Prop)
    (preserved : ∀ s call, admitted s call → inv s → inv (step s call).2)
    (s : S) (calls : List C) (initial : inv s)
    (allowed : ∀ e ∈ trace step s calls, admitted e.before e.call)
    (e : Event S C R) (member : e ∈ trace step s calls) :
    inv e.before ∧ e = fire step e.before e.call := by
  induction calls generalizing s with
  | nil => simp [trace] at member
  | cons call rest ih =>
    rcases List.mem_cons.mp member with rfl | later
    · exact ⟨initial,rfl⟩
    · refine ih _ (preserved s call (allowed _ List.mem_cons_self) initial) ?_ later
      exact fun e member => allowed e (List.mem_cons_of_mem _ member)

/-- When a step keeps the invariant exactly on a condition, a run keeps it exactly when each
of its steps meets the condition. -/
theorem trace_invariant_iff (step : S → C → R × S) (admitted : S → C → Prop) (inv : S → Prop)
    (exactly : ∀ s call, inv s → (inv (step s call).2 ↔ admitted s call))
    (s : S) (calls : List C) (initial : inv s) :
    (∀ e ∈ trace step s calls, inv e.after) ↔ ∀ e ∈ trace step s calls, admitted e.before e.call := by
  induction calls generalizing s with
  | nil => exact iff_of_true (fun e none => (nomatch none)) (fun e none => (nomatch none))
  | cons call rest ih =>
    rw [trace,List.forall_mem_cons,List.forall_mem_cons]
    constructor
    · rintro ⟨kept,later⟩
      exact ⟨(exactly s call initial).mp kept,(ih _ kept).mp later⟩
    · rintro ⟨now,later⟩
      have kept := (exactly s call initial).mpr now
      exact ⟨kept,(ih _ kept).mpr later⟩

theorem filterMap_trace_cons (step : S → C → R × S) (emit : Event S C R → Option H) (s : S) (call : C)
    (rest : List C) : (trace step s (call :: rest)).filterMap emit =
      (emit (fire step s call)).toList ++ (trace step (step s call).2 rest).filterMap emit := by
  cases h : emit (fire step s call) <;> simp [trace,h]

theorem filterMap_concat {E : Type} (emit : E → Option H) (history : List E) (last : E) :
    (history ++ [last]).filterMap emit = history.filterMap emit ++ (emit last).toList := by
  cases h : emit last <;> simp [h]

/-- What holds of every entry of a history and of the entry a step adds. -/
theorem forall_mem_concat {holds : H → Prop} {history : List H} {last : H} (earlier : ∀ x ∈ history, holds x)
    (now : holds last) : ∀ x ∈ history ++ [last], holds x := by
  rw [List.forall_mem_append]
  exact ⟨earlier,List.forall_mem_singleton.mpr now⟩

/-- A history is what a run has emitted so far. A relation between history and
state that each admitted step extends holds at the end of every run. -/
theorem history_invariant (step : S → C → R × S) (emit : Event S C R → Option H)
    (admitted : S → C → Prop) (rel : List H → S → Prop)
    (extend : ∀ history s call, admitted s call → rel history s →
      rel (history ++ (emit (fire step s call)).toList) (step s call).2)
    (history : List H) (s : S) (calls : List C) (initial : rel history s)
    (allowed : ∀ e ∈ trace step s calls, admitted e.before e.call) :
    rel (history ++ (trace step s calls).filterMap emit) (final step s calls) := by
  induction calls generalizing history s with
  | nil => simpa [trace,final] using initial
  | cons call rest ih =>
    have next := extend history s call (allowed _ List.mem_cons_self) initial
    have tail := ih _ _ next (fun e member => allowed e (List.mem_cons_of_mem _ member))
    rw [filterMap_trace_cons,← List.append_assoc]
    exact tail

/-- A relation between the calls so far and the state, which each step extends. -/
theorem calls_invariant (step : S → C → R × S) (rel : List C → S → Prop)
    (extend : ∀ calls s call, rel calls s → rel (calls ++ [call]) (step s call).2)
    (s : S) (calls : List C) (initial : rel [] s) : rel calls (final step s calls) := by
  induction calls using List.reverseRecOn with
  | nil => exact initial
  | append_singleton earlier call ih =>
    rw [final_append]
    exact extend earlier _ call ih

/-- A counter that no step lowers is, around every occurrence, at most its final value. -/
theorem le_final_of_mem_trace (step : S → C → R × S) (inv : S → Prop) (counter : S → Nat)
    (preserved : ∀ s call, inv s → inv (step s call).2)
    (monotone : ∀ s call, inv s → counter s ≤ counter (step s call).2)
    (s : S) (calls : List C) (initial : inv s) :
    counter s ≤ counter (final step s calls) ∧
      ∀ e ∈ trace step s calls, counter e.before ≤ counter (final step s calls) ∧
        counter e.after ≤ counter (final step s calls) := by
  induction calls generalizing s with
  | nil => simp [trace,final]
  | cons call rest ih =>
    obtain ⟨later,events⟩ := ih _ (preserved s call initial)
    have first := (monotone s call initial).trans later
    refine ⟨first,fun e member => ?_⟩
    rcases List.mem_cons.mp member with rfl | tail
    · exact ⟨first,later⟩
    · exact events e tail

/-- A counter whose steps are zero or one counts the occurrences that moved it. -/
theorem counter_final (step : S → C → R × S) (inv : S → Prop) (counter : S → Nat)
    (preserved : ∀ s call, inv s → inv (step s call).2)
    (unit : ∀ s call, inv s → counter (step s call).2 = counter s ∨
      counter (step s call).2 = counter s + 1)
    (s : S) (calls : List C) (initial : inv s) :
    counter (final step s calls) = counter s +
      (trace step s calls).countP (fun e => counter e.after ≠ counter e.before) := by
  induction calls generalizing s with
  | nil => simp [trace,final]
  | cons call rest ih =>
    rw [final,ih _ (preserved s call initial),trace,List.countP_cons]
    rcases unit s call initial with same | moved
    · simp [fire,same]
    · simp [fire,moved]; omega

/-- Amortised counting: when what an occurrence spends is covered by what it earns, at some rate, or out
of a potential of the state, so is what a whole run spends. -/
theorem spent_le (step : S → C → R × S) (inv : S → Prop) (potential : S → Nat) (rate : Nat)
    (spends earns : Event S C R → Bool) (preserved : ∀ s call, inv s → inv (step s call).2)
    (covered : ∀ s call, inv s → (spends (fire step s call)).toNat + potential (step s call).2 ≤
      rate * (earns (fire step s call)).toNat + potential s)
    (s : S) (calls : List C) (initial : inv s) :
    (trace step s calls).countP spends + potential (final step s calls) ≤
      rate * (trace step s calls).countP earns + potential s := by
  induction calls generalizing s with
  | nil => simp [trace,final]
  | cons call rest ih =>
    have now := covered s call initial
    have later := ih _ (preserved s call initial)
    have spent : (trace step s (call :: rest)).countP spends =
        (trace step (step s call).2 rest).countP spends + (spends (fire step s call)).toNat := by
      rw [trace,List.countP_cons]
      cases spends (fire step s call) <;> rfl
    have earned : (trace step s (call :: rest)).countP earns =
        (trace step (step s call).2 rest).countP earns + (earns (fire step s call)).toNat := by
      rw [trace,List.countP_cons]
      cases earns (fire step s call) <;> rfl
    rw [spent,earned,final,Nat.mul_add]
    omega

/-- Two machines that a relation keeps together show the same over alike calls, and end together. -/
theorem lockstep {S' C' R' O : Type} (step : S → C → R × S) (step' : S' → C' → R' × S') (rel : S → S' → Prop)
    (like : C → C' → Prop) (observe : Event S C R → O) (observe' : Event S' C' R' → O)
    (together : ∀ s s' call call', rel s s' → like call call' →
      rel (step s call).2 (step' s' call').2 ∧ observe (fire step s call) = observe' (fire step' s' call'))
    {s : S} {s' : S'} {calls : List C} {calls' : List C'} (related : rel s s') (alike : List.Forall₂ like calls calls') :
    (trace step s calls).map observe = (trace step' s' calls').map observe' ∧
      rel (final step s calls) (final step' s' calls') := by
  induction alike generalizing s s' with
  | nil => exact ⟨rfl,related⟩
  | cons first rest ih =>
    obtain ⟨next,same⟩ := together s s' _ _ related first
    obtain ⟨later,ended⟩ := ih next
    rw [trace,trace,List.map_cons,List.map_cons,same,later]
    exact ⟨rfl,ended⟩

/-- A call of the list opened something, with the calls before it, and no later call has closed it. -/
def Since (opens : List C → C → Prop) (closes : C → Prop) (calls : List C) : Prop :=
  ∃ front call back, calls = front ++ call :: back ∧ opens front call ∧ ∀ later ∈ back, ¬closes later

theorem not_since_nil (opens : List C → C → Prop) (closes : C → Prop) : ¬Since opens closes [] := by
  rintro ⟨front,call,back,whole,_⟩
  exact absurd whole.symm (List.append_ne_nil_of_right_ne_nil _ (List.cons_ne_nil _ _))

theorem since_concat (opens : List C → C → Prop) (closes : C → Prop) (calls : List C) (last : C) :
    Since opens closes (calls ++ [last]) ↔ opens calls last ∨ Since opens closes calls ∧ ¬closes last := by
  constructor
  · rintro ⟨front,call,back,whole,opened,still⟩
    rcases List.eq_nil_or_concat back with rfl | ⟨earlier,final,rfl⟩
    · obtain ⟨rfl,rfl⟩ := List.append_inj' whole rfl |>.imp id (fun same => (List.cons.inj same).1)
      exact .inl opened
    · rw [List.concat_eq_append] at whole still
      rw [← List.cons_append,← List.append_assoc] at whole
      obtain ⟨rfl,same⟩ := List.append_inj' whole rfl
      cases same
      refine .inr ⟨⟨front,call,earlier,rfl,opened,?_⟩,still last (by simp)⟩
      exact fun later member => still later (List.mem_append_left _ member)
  · rintro (opened | ⟨⟨front,call,back,rfl,opened,still⟩,open_⟩)
    · exact ⟨calls,last,[],rfl,opened,List.forall_mem_nil _⟩
    · exact ⟨front,call,back ++ [last],by simp,opened,forall_mem_concat still open_⟩

end Streamhaul.Machine
