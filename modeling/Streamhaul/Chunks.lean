import Mathlib.Tactic

/-! Lists cut into chunks of one size, and the slots in which a receiver collects them. The
chunks may arrive in any order: what has arrived is a set of indices, and the slots are a
function of that set. -/
namespace Streamhaul.Chunks

variable {α : Type}

def chunk (size : Nat) (xs : List α) (i : Nat) : List α := (xs.drop (i * size)).take size

def pieces (size : Nat) (xs : List α) (n : Nat) : List (List α) := (List.range n).map (chunk size xs)

theorem length_chunk (size : Nat) (xs : List α) (i : Nat) :
    (chunk size xs i).length = min size (xs.length - i * size) := by
  rw [chunk,List.length_take,List.length_drop]

@[simp] theorem length_pieces (size : Nat) (xs : List α) (n : Nat) : (pieces size xs n).length = n := by
  simp [pieces]

theorem getElem?_pieces {size n i : Nat} (xs : List α) (inside : i < n) :
    (pieces size xs n)[i]? = some (chunk size xs i) := by
  simp [pieces,inside]

theorem flatten_pieces_take (size : Nat) (xs : List α) (n : Nat) : (pieces size xs n).flatten = xs.take (n * size) := by
  induction n with
  | zero => simp [pieces]
  | succ n ih =>
    rw [pieces,List.range_succ,List.map_append,List.flatten_append,← pieces,ih]
    simp only [List.map_cons,List.map_nil,List.flatten_cons,List.flatten_nil,List.append_nil,chunk]
    rw [Nat.succ_mul,List.take_add]

theorem flatten_pieces {size n : Nat} {xs : List α} (enough : xs.length ≤ n * size) :
    (pieces size xs n).flatten = xs := by
  rw [flatten_pieces_take,List.take_of_length_le enough]

def count (size : Nat) (xs : List α) : Nat := (xs.length + size - 1) / size

theorem length_le_count {size : Nat} (positive : 0 < size) (xs : List α) : xs.length ≤ count size xs * size := by
  have division := Nat.div_add_mod (xs.length + size - 1) size
  have remainder := Nat.mod_lt (xs.length + size - 1) positive
  rw [Nat.mul_comm] at division
  unfold count
  omega

theorem lt_length_of_lt_count {size i : Nat} {xs : List α} (inside : i < count size xs) : i * size < xs.length := by
  have positive : 0 < size := by
    apply Nat.pos_of_ne_zero
    rintro rfl
    simp [count] at inside
  have bound := (Nat.le_div_iff_mul_le positive).mp (Nat.succ_le_of_lt inside)
  rw [Nat.succ_mul] at bound
  omega

theorem count_le_iff {size n : Nat} (positive : 0 < size) (xs : List α) : count size xs ≤ n ↔ xs.length ≤ n * size := by
  constructor
  · intro few
    exact (length_le_count positive xs).trans (Nat.mul_le_mul_right size few)
  · intro short
    by_contra many
    have long := lt_length_of_lt_count (Nat.lt_of_not_le many)
    omega

theorem max_count_one {size : Nat} (positive : 0 < size) (xs : List α) :
    max (count size xs) 1 = if xs.isEmpty then 1 else count size xs := by
  cases xs with
  | nil =>
    have empty : count size ([] : List α) ≤ 0 := (count_le_iff positive ([] : List α)).mpr (Nat.zero_le _)
    rw [List.isEmpty_nil,if_pos rfl]
    omega
  | cons x rest =>
    have covers : ¬count size (x :: rest) ≤ 0 := by
      rw [count_le_iff positive,Nat.zero_mul]
      simp
    rw [List.isEmpty_cons,if_neg Bool.false_ne_true]
    omega

def writeAt (out : List α) (offset : Nat) (part : List α) : List α :=
  out.take offset ++ part ++ out.drop (offset + part.length)

theorem writeAt_eq {out done rest : List α} (part : List α) (split : out = done ++ rest) :
    writeAt out done.length part = (done ++ part) ++ rest.drop part.length := by
  rw [writeAt,split,List.take_left',← List.drop_drop,List.drop_left']
  · rfl
  · rfl

def writeAll : List α → Nat → List (List α) → List α
  | out, _, [] => out
  | out, offset, part :: parts => writeAll (writeAt out offset part) (offset + part.length) parts

theorem writeAll_eq {out done rest : List α} {parts : List (List α)} (split : out = done ++ rest) :
    writeAll out done.length parts = (done ++ parts.flatten) ++ rest.drop parts.flatten.length := by
  induction parts generalizing out done rest with
  | nil => simp [writeAll,split]
  | cons part parts ih =>
    have next := ih (writeAt_eq part split)
    rw [List.length_append] at next
    rw [writeAll,next,List.flatten_cons,List.drop_drop,List.length_append]
    simp only [List.append_assoc]

theorem writeAll_full {out : List α} {parts : List (List α)} (size : out.length = parts.flatten.length) :
    writeAll out 0 parts = parts.flatten := by
  have filled : writeAll out ([] : List α).length parts = _ := writeAll_eq (List.nil_append out).symm
  rw [List.length_nil,List.nil_append,← size,List.drop_length,List.append_nil] at filled
  exact filled

section Slots

/-- The slots when exactly the chunks with these indices have arrived. -/
def slots (parts : List α) (present : Finset Nat) : List (Option α) :=
  parts.mapIdx (fun i part => if i ∈ present then some part else none)

variable {parts : List α} {present : Finset Nat} {n i : Nat}

@[simp] theorem length_slots : (slots parts present).length = parts.length := by
  simp [slots]

theorem getElem?_slots {i : Nat} {part : α} (here : parts[i]? = some part) :
    (slots parts present)[i]? = some (if i ∈ present then some part else none) := by
  simp [slots,here]

theorem slots_empty : slots parts ∅ = List.replicate parts.length none := by
  apply List.ext_getElem?
  intro i
  cases here : parts[i]? with
  | none =>
    have outside := List.getElem?_eq_none_iff.mp here
    simp [slots,outside]
  | some part =>
    obtain ⟨inside,_⟩ := List.getElem?_eq_some_iff.mp here
    rw [getElem?_slots here]
    simp [inside]

/-- Filling one slot adds its index to the set. -/
theorem set_slots {i : Nat} {part : α} (here : parts[i]? = some part) :
    (slots parts present).set i (some part) = slots parts (insert i present) := by
  apply List.ext_getElem?
  intro j
  by_cases same : j = i
  · subst same
    obtain ⟨inside,_⟩ := List.getElem?_eq_some_iff.mp here
    rw [getElem?_slots here,List.getElem?_set_self (by simpa using inside)]
    simp
  · rw [List.getElem?_set_ne (Ne.symm same)]
    cases other : parts[j]? with
    | none => simp [slots,other]
    | some part' =>
      rw [getElem?_slots other,getElem?_slots other]
      simp [same]

theorem reduceOption_slots_range : (slots parts (Finset.range parts.length)).reduceOption = parts := by
  have full : slots parts (Finset.range parts.length) = parts.map some := by
    apply List.ext_getElem?
    intro i
    cases here : parts[i]? with
    | none => simp [slots,here]
    | some part =>
      obtain ⟨inside,_⟩ := List.getElem?_eq_some_iff.mp here
      rw [getElem?_slots here,List.getElem?_map,here]
      simp [inside]
  rw [full]
  change (parts.map some).filterMap id = parts
  simp

theorem card_eq_iff {n : Nat} (within : present ⊆ Finset.range n) : present.card = n ↔ present = Finset.range n := by
  constructor
  · intro size
    exact Finset.eq_of_subset_of_card_le within (by rw [Finset.card_range,size])
  · rintro rfl
    exact Finset.card_range n

/-- Collecting `n` chunks by index: whether chunk `i` completes the collection, and what is
held then. A completed collection starts over. -/
def collect (n : Nat) (present : Finset Nat) (i : Nat) : Bool × Finset Nat :=
  if i ∈ present then (false,present)
  else if insert i present = Finset.range n then (true,∅)
  else (false,insert i present)

theorem collect_within (within : present ⊆ Finset.range n) (inside : i < n) :
    (collect n present i).2 ⊆ Finset.range n := by
  unfold collect
  split_ifs
  · exact within
  · exact Finset.empty_subset _
  · exact Finset.insert_subset (Finset.mem_range.mpr inside) within

theorem collect_missing {n i m : Nat} (inside : m < n) (missing : m ∉ insert i present) :
    collect n present i = (false,insert i present) := by
  unfold collect
  split_ifs with here done
  · rw [Finset.insert_eq_of_mem here]
  · rw [done] at missing
    exact absurd (Finset.mem_range.mpr inside) missing
  · rfl

theorem collect_completes (completes : (collect n present i).1 = true) : insert i present = Finset.range n := by
  unfold collect at completes
  split at completes
  · cases completes
  · split at completes
    · next done => exact done
    · cases completes

theorem collect_last (new : i ∉ present) (done : insert i present = Finset.range n) :
    collect n present i = (true,∅) := by
  rw [collect,if_neg new,if_pos done]

end Slots

end Streamhaul.Chunks
