import Mathlib.Tactic

/-! Counting semaphores with owned permits: whoever acquires a permit has it until it is dropped. The
implementation is a parameter; what its users rely on are laws about the permits that are out. -/
namespace Streamhaul

structure Semaphore (Sem Permit : Type) where
  new : Nat → Sem
  tryAcquireOwned : Sem → Option (Permit × Sem)
  drop : Sem → Permit → Sem
  availablePermits : Sem → Nat

variable {Sem Permit : Type}

/-- `out` are the permits that are out, in any order. A granted permit is none of them, and one is refused
only when as many are out as there are. -/
structure Semaphore.Lawful (sem : Semaphore Sem Permit) where
  size : Sem → Nat
  out : Sem → List Permit
  created : ∀ n, size (sem.new n) = n ∧ out (sem.new n) = []
  counted : ∀ s, sem.availablePermits s + (out s).length = size s
  granted : ∀ s p s', sem.tryAcquireOwned s = some (p,s') →
    size s' = size s ∧ (out s').Perm (p :: out s) ∧ p ∉ out s
  refused : ∀ s, sem.tryAcquireOwned s = none ↔ sem.availablePermits s = 0
  dropped : ∀ s p rest, (out s).Perm (p :: rest) → size (sem.drop s p) = size s ∧ (out (sem.drop s p)).Perm rest

namespace Semaphore

/-- A semaphore that numbers its permits. -/
structure Numbered where
  size : Nat
  out : List Nat
  next : Nat
  room : out.length ≤ size
  fresh : ∀ p ∈ out, p < next

def numbered : Semaphore Numbered Nat where
  new n := ⟨n,[],0,Nat.zero_le n,List.forall_mem_nil _⟩
  tryAcquireOwned s :=
    if free : s.out.length < s.size then
      some (s.next,⟨s.size,s.next :: s.out,s.next + 1,free,
        List.forall_mem_cons.mpr ⟨Nat.lt_succ_self _,fun p out => (s.fresh p out).trans (Nat.lt_succ_self _)⟩⟩)
    else none
  drop s p := ⟨s.size,s.out.erase p,s.next,List.length_erase_le.trans s.room,
    fun q out => s.fresh q (List.mem_of_mem_erase out)⟩
  availablePermits s := s.size - s.out.length

theorem tryAcquireOwned_numbered {s s' : Numbered} {p : Nat} (got : numbered.tryAcquireOwned s = some (p,s')) :
    p = s.next ∧ s'.size = s.size ∧ s'.out = s.next :: s.out := by
  simp only [numbered] at got
  split at got
  · cases got
    exact ⟨rfl,rfl,rfl⟩
  · cases got

def numberedLawful : numbered.Lawful where
  size := Numbered.size
  out := Numbered.out
  created n := ⟨rfl,rfl⟩
  counted s := Nat.sub_add_cancel s.room
  granted s p s' got := by
    obtain ⟨rfl,size,out⟩ := tryAcquireOwned_numbered got
    exact ⟨size,.of_eq out,fun here => lt_irrefl _ (s.fresh _ here)⟩
  refused s := by
    have room := s.room
    simp only [numbered,dite_eq_right_iff,reduceCtorEq,imp_false]
    omega
  dropped s p rest here := by
    refine ⟨rfl,?_⟩
    have erased := here.erase p
    rwa [List.erase_cons_head] at erased

end Semaphore

end Streamhaul
