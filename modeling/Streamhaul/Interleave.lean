import Streamhaul.Machine

/-! Parts that share a resource. A call reaches one part, which may change the resource on the way, and
the calls of different parts interleave in any order. What one part guarantees whatever the resource is
holds over every interleaving, and so do the books that the resource keeps of what the parts own. -/
namespace Streamhaul.Interleave

variable {G S C R : Type}

structure System (G S : Type) where
  shared : G
  parts : List S

/-- One call, to the part with this index. -/
def step (own : G → S → C → R × G × S) (s : System G S) (call : Nat × C) : Option R × System G S :=
  match s.parts[call.1]? with
  | none => (none,s)
  | some part =>
    let (reply,shared,part) := own s.shared part call.2
    (some reply,⟨shared,s.parts.set call.1 part⟩)

/-- What a part was called with and replied. -/
def seenBy (i : Nat) (e : Machine.Event (System G S) (Nat × C) (Option R)) : Option (C × R) :=
  if e.call.1 = i then e.response.map (fun reply => (e.call.2,reply)) else none

/-- The calls of a part and its replies, in a run. -/
def historyOf (own : G → S → C → R × G × S) (s : System G S) (calls : List (Nat × C)) (i : Nat) : List (C × R) :=
  (Machine.trace (step own) s calls).filterMap (seenBy i)

variable {own : G → S → C → R × G × S}

theorem step_none {s : System G S} {call : Nat × C} (missing : s.parts[call.1]? = none) :
    step own s call = (none,s) := by
  simp [step,missing]

theorem step_some {s : System G S} {call : Nat × C} {part : S} (here : s.parts[call.1]? = some part) :
    step own s call = (some (own s.shared part call.2).1,
      ⟨(own s.shared part call.2).2.1,s.parts.set call.1 (own s.shared part call.2).2.2⟩) := by
  simp [step,here]

/-- A call to another part leaves a part alone, and a call to it is one of its own steps. -/
theorem part_step (s : System G S) (call : Nat × C) (i : Nat) (part : S)
    (after : (step own s call).2.parts[i]? = some part) :
    (s.parts[i]? = some part ∧ seenBy i (Machine.fire (step own) s call) = none) ∨
    ∃ before, s.parts[i]? = some before ∧ part = (own s.shared before call.2).2.2 ∧ call.1 = i ∧
      seenBy i (Machine.fire (step own) s call) = some (call.2,(own s.shared before call.2).1) := by
  cases here : s.parts[call.1]? with
  | none =>
    rw [step_none here] at after
    exact .inl ⟨after,by simp [seenBy,Machine.fire,step_none here]⟩
  | some before =>
    rw [step_some here] at after
    by_cases same : call.1 = i
    · subst same
      obtain ⟨bound,_⟩ := List.getElem?_eq_some_iff.mp here
      simp only [List.getElem?_set_self bound,Option.some.injEq] at after
      exact .inr ⟨before,here,after.symm,rfl,by simp [seenBy,Machine.fire,step_some here]⟩
    · simp only [List.getElem?_set_ne same] at after
      exact .inl ⟨after,by simp [seenBy,Machine.fire,same]⟩

/-- A relation between the history of a part and its state that every step of its own extends, whatever is
shared. -/
theorem part_history (admitted : C → Prop) (rel : List (C × R) → S → Prop)
    (extend : ∀ shared part call history, admitted call → rel history part →
      rel (history ++ [(call,(own shared part call).1)]) (own shared part call).2.2)
    (s : System G S) (calls : List (Nat × C)) (initial : ∀ part ∈ s.parts, rel [] part)
    (allowed : ∀ call ∈ calls, admitted call.2) (i : Nat) (part : S)
    (here : (Machine.final (step own) s calls).parts[i]? = some part) : rel (historyOf own s calls i) part := by
  refine Machine.history_invariant (step own) (seenBy i) (fun _ call => admitted call.2)
    (fun history s => ∀ part, s.parts[i]? = some part → rel history part) ?_ [] s calls ?_ ?_ part here
  · intro history s call ok related part after
    rcases part_step s call i part after with ⟨before,unseen⟩ | ⟨before,found,rfl,_,seen⟩
    · simpa [unseen] using related part before
    · simpa [seen] using extend s.shared before call.2 history ok (related before found)
  · exact fun part found => initial part (List.mem_of_getElem? found)
  · exact fun e member => allowed e.call (Machine.mem_trace_call _ _ _ e member)

/-- Replacing a part exchanges what it owns, and leaves what the others own. -/
theorem flatMap_set {A : Type} (owns : S → List A) {parts : List S} {i : Nat} {before : S}
    (here : parts[i]? = some before) : ∃ others, (parts.flatMap owns).Perm (owns before ++ others) ∧
      ∀ after, ((parts.set i after).flatMap owns).Perm (owns after ++ others) := by
  induction parts generalizing i with
  | nil => simp at here
  | cons first rest ih =>
    cases i with
    | zero =>
      obtain rfl : first = before := by simpa using here
      exact ⟨rest.flatMap owns,.refl _,fun after => .refl _⟩
    | succ i =>
      obtain ⟨others,now,later⟩ := ih (by simpa using here)
      have pull {own tail : List A} (same : tail.Perm (own ++ others)) :
          (owns first ++ tail).Perm (own ++ (owns first ++ others)) := by
        refine (same.append_left (owns first)).trans ?_
        rw [← List.append_assoc,← List.append_assoc]
        exact List.perm_append_comm.append_right others
      exact ⟨owns first ++ others,pull now,fun after => pull (later after)⟩

/-- Where every step keeps the books of the resource with its own part, whatever the others own, a run keeps
them with all parts. -/
theorem owned_final {A : Type} (owns : S → List A) (books : G → List A → Prop)
    (reorder : ∀ shared held held', held.Perm held' → books shared held → books shared held')
    (kept : ∀ shared part call others, books shared (owns part ++ others) →
      books (own shared part call).2.1 (owns (own shared part call).2.2 ++ others))
    (s : System G S) (calls : List (Nat × C)) (initial : books s.shared (s.parts.flatMap owns)) :
    books (Machine.final (step own) s calls).shared ((Machine.final (step own) s calls).parts.flatMap owns) := by
  refine Machine.final_invariant (step own) (fun _ _ => True) (fun now => books now.shared (now.parts.flatMap owns)) ?_
    s calls initial (by simp)
  intro now call _ books
  cases here : now.parts[call.1]? with
  | none => rwa [step_none here]
  | some part =>
    obtain ⟨others,same,same'⟩ := flatMap_set owns here
    rw [step_some here]
    exact reorder _ _ _ (same' _).symm (kept _ _ _ _ (reorder _ _ _ same books))

end Streamhaul.Interleave
