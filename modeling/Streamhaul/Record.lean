import Streamhaul.Bytes
import Mathlib.Data.List.SplitLengths

/-! Byte strings made of fields one after the other: cutting one at the sizes of the fields gives
exactly the fields. And the steps of a reader that may fail, for one that did not. -/
namespace Streamhaul

section Reader

variable {ε α β : Type}

theorem bind_eq_ok_iff {x : Except ε α} {f : α → Except ε β} {b : β} :
    (x >>= f) = .ok b ↔ ∃ a, x = .ok a ∧ f a = .ok b := by
  cases x <;> simp [bind,Except.bind]

theorem throw_eq_ok {e : ε} {a : α} : ((throw e : Except ε α) = .ok a) = False := eq_false nofun

theorem ite_eq_ok_iff {c : Prop} [Decidable c] {x y : Except ε α} {a : α} :
    (if c then x else y) = .ok a ↔ c ∧ x = .ok a ∨ ¬c ∧ y = .ok a := by
  split <;> simp_all

end Reader

theorem eq_flatten_iff {fields : List Bytes} {bytes : Bytes} (size : bytes.length = (fields.map List.length).sum) :
    bytes = fields.flatten ↔ (fields.map List.length).splitLengths bytes = fields := by
  constructor
  · rintro rfl
    clear size
    induction fields with
    | nil => rfl
    | cons field rest ih =>
      rw [List.map_cons,List.splitLengths_cons,List.flatten_cons,List.take_left,List.drop_left,ih]
  · intro cut
    have whole := List.flatten_splitLengths bytes (fields.map List.length) size.le
    rw [cut] at whole
    exact whole.symm

theorem toBeBytes_toList {n : Nat} (v : Vector UInt8 n) : toBeBytes n (fromBeBytes v.toList) = v.toList := by
  have digits := toBeBytes_fromBeBytes v.toList
  rwa [Vector.length_toList] at digits

theorem fromBeBytes_toList_lt {n : Nat} (v : Vector UInt8 n) : fromBeBytes v.toList < 256 ^ n := by
  have bound := fromBeBytes_lt v.toList
  rwa [Vector.length_toList] at bound

section At

variable {bytes : Bytes} {start n : Nat}

theorem take_drop_eq_toList_iff {v : Vector UInt8 n} (bound : start + n ≤ bytes.length) :
    (bytes.drop start).take n = v.toList ↔ vectorAt n bytes start = v := by
  rw [← toList_vectorAt bound]
  exact Vector.toList_inj

theorem take_one_eq_iff {b : UInt8} (bound : start < bytes.length) :
    (bytes.drop start).take 1 = [b] ↔ bytes.getD start 0 = b := by
  rw [List.drop_eq_getElem_cons bound,List.take_succ_cons,List.take_zero,List.getD_eq_getElem?_getD,
    List.getElem?_eq_getElem bound]
  exact List.singleton_inj

end At

end Streamhaul
