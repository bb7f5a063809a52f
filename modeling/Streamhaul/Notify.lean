import Mathlib.Tactic

/-! Notifications to one waiting task, as an asynchronous library offers them. A future is created before its task
looks at a condition and polled after. The library is a parameter; what is asked of it are the laws of `Lawful`. -/
namespace Streamhaul

/-- The operations of a notifier: a new one; a signal for one waiter and for all; a new future; a poll of a future. -/
structure Notify (N W : Type) where
  new : N
  notifyOne : N → N
  notifyWaiters : N → N
  notified : N → W
  poll : W → N → Bool × W × N

namespace Notify

variable {N W : Type} (wake : Notify N W)

/-- The next poll completes. -/
def Ready (n : N) (future : W) : Prop := (wake.poll future n).1 = true

/-- A signal keeps a notifier on which nobody waits, and does not miss the only future of another. -/
structure Signals (released : N → Prop) (held : N → W → Prop) (signal : N → N) : Prop where
  keeps_released : ∀ n, released n → released (signal n)
  keeps_held : ∀ n future, held n future → held (signal n) future
  ready : ∀ n future, held n future → wake.Ready (signal n) future

/-- The laws, for a notifier with one future at a time: `released` when none waits, `held` by a future that was
created and has not completed. -/
structure Lawful (released : N → Prop) (held : N → W → Prop) : Prop where
  new : released wake.new
  notified : ∀ n, released n → held n (wake.notified n)
  notifyOne : wake.Signals released held wake.notifyOne
  notifyWaiters : wake.Signals released held wake.notifyWaiters
  completed : ∀ n future, held n future → wake.Ready n future → released (wake.poll future n).2.2
  waits : ∀ n future, held n future → ¬wake.Ready n future →
    held (wake.poll future n).2.2 (wake.poll future n).2.1

/-- A notifier that keeps the laws: a permit, and the number of signals to all, which a future remembers. -/
def counting : Notify (Bool × Nat) Nat where
  new := (false,0)
  notifyOne n := (true,n.2)
  notifyWaiters n := (n.1,n.2 + 1)
  notified n := n.2
  poll since n := (n.1 || since ≠ n.2,since,false,n.2)

theorem counting_lawful : counting.Lawful (fun _ => True) (fun n since => since ≤ n.2) where
  new := trivial
  notified _ _ := le_rfl
  notifyOne := ⟨fun _ _ => trivial,fun _ _ => id,by simp [Ready,counting]⟩
  notifyWaiters := by
    refine ⟨fun _ _ => trivial,fun _ _ => Nat.le_succ_of_le,?_⟩
    intro n since before
    have late : since ≠ n.2 + 1 := by omega
    simp [Ready,counting,late]
  completed _ _ _ _ := trivial
  waits _ _ before _ := before

end Notify

end Streamhaul
