import Mathlib.Tactic

/-! Finite maps as association lists without repeated keys. Distinctness is a
field, so the number of entries is the size of the map. -/
namespace Streamhaul

structure AssocMap (κ α : Type) where
  entries : List (κ × α)
  distinct : (entries.map Prod.fst).Nodup
  deriving DecidableEq

namespace AssocMap

variable {κ α : Type}

theorem ext_entries {m m' : AssocMap κ α} (same : m.entries = m'.entries) : m = m' := by
  cases m; cases m'; simp_all

variable [DecidableEq κ] {m : AssocMap κ α}

def lookup (k : κ) : List (κ × α) → Option α
  | [] => none
  | (k',v) :: rest => if k' = k then some v else lookup k rest

def put (k : κ) (v : α) : List (κ × α) → List (κ × α)
  | [] => [(k,v)]
  | (k',v') :: rest => if k' = k then (k,v) :: rest else (k',v') :: put k v rest

theorem keys_put (k : κ) (v : α) (entries : List (κ × α)) :
    (put k v entries).map Prod.fst =
      if k ∈ entries.map Prod.fst then entries.map Prod.fst else entries.map Prod.fst ++ [k] := by
  induction entries with
  | nil => simp [put]
  | cons entry rest ih =>
    obtain ⟨k',v'⟩ := entry
    by_cases same : k' = k
    · simp [put,same]
    · simp only [put,if_neg same,List.map_cons,ih,List.mem_cons,Ne.symm same,false_or]
      split <;> simp

theorem put_fresh (k : κ) (v : α) (entries : List (κ × α)) (fresh : k ∉ entries.map Prod.fst) :
    put k v entries = entries ++ [(k,v)] := by
  induction entries with
  | nil => rfl
  | cons entry rest ih =>
    obtain ⟨k',v'⟩ := entry
    simp only [List.map_cons,List.mem_cons,not_or] at fresh
    simp [put,Ne.symm fresh.1,ih fresh.2]

theorem lookup_put (k k' : κ) (v : α) (entries : List (κ × α)) :
    lookup k' (put k v entries) = if k' = k then some v else lookup k' entries := by
  induction entries with
  | nil => simp [put,lookup,eq_comm]
  | cons entry rest ih =>
    obtain ⟨key,value⟩ := entry
    by_cases same : key = k
    · subst same
      by_cases query : k' = key
      · simp [put,lookup,query]
      · simp [put,lookup,query,Ne.symm query]
    · by_cases query : key = k'
      · subst query
        simp [put,lookup,same]
      · simp [put,lookup,same,query,ih]

theorem lookup_filter (keep : κ → Bool) (k : κ) (entries : List (κ × α)) :
    lookup k (entries.filter (fun entry => keep entry.1)) =
      if keep k then lookup k entries else none := by
  induction entries with
  | nil => simp [lookup]
  | cons entry rest ih =>
    obtain ⟨key,value⟩ := entry
    by_cases same : key = k
    · subst same
      cases h : keep key <;> simp [lookup,h,ih]
    · cases h : keep key <;> simp [lookup,h,same,ih]

theorem lookup_eq_none_iff (k : κ) (entries : List (κ × α)) :
    lookup k entries = none ↔ k ∉ entries.map Prod.fst := by
  induction entries with
  | nil => simp [lookup]
  | cons entry rest ih =>
    obtain ⟨key,value⟩ := entry
    by_cases same : key = k
    · simp [lookup,same]
    · simp only [lookup,if_neg same,ih,List.map_cons,List.mem_cons,Ne.symm same,false_or]

theorem lookup_mem {k : κ} {v : α} {entries : List (κ × α)} (found : lookup k entries = some v) :
    (k,v) ∈ entries := by
  induction entries with
  | nil => simp [lookup] at found
  | cons entry rest ih =>
    obtain ⟨key,value⟩ := entry
    by_cases same : key = k
    · simp_all [lookup]
    · apply List.mem_cons_of_mem
      apply ih
      simpa [lookup,same] using found

theorem lookup_of_mem {k : κ} {v : α} {entries : List (κ × α)} (distinct : (entries.map Prod.fst).Nodup)
    (member : (k,v) ∈ entries) : lookup k entries = some v := by
  induction entries with
  | nil => cases member
  | cons entry rest ih =>
    obtain ⟨key,value⟩ := entry
    rw [List.map_cons,List.nodup_cons] at distinct
    rcases List.mem_cons.mp member with here | later
    · cases here
      simp [lookup]
    · have other : key ≠ k := by
        rintro rfl
        exact distinct.1 (List.mem_map.mpr ⟨_,later,rfl⟩)
      simpa [lookup,other] using ih distinct.2 later

def empty : AssocMap κ α := ⟨[],by simp⟩

def get? (m : AssocMap κ α) (k : κ) : Option α := lookup k m.entries

def contains (m : AssocMap κ α) (k : κ) : Bool := (m.get? k).isSome

def size (m : AssocMap κ α) : Nat := m.entries.length

def insert (m : AssocMap κ α) (k : κ) (v : α) : AssocMap κ α where
  entries := put k v m.entries
  distinct := by
    rw [keys_put]
    split
    · exact m.distinct
    · next fresh =>
      apply List.Nodup.append m.distinct (List.nodup_singleton k)
      simpa using fresh

def retain (m : AssocMap κ α) (keep : κ → Bool) : AssocMap κ α where
  entries := m.entries.filter (fun entry => keep entry.1)
  distinct := (List.Sublist.map Prod.fst List.filter_sublist).nodup m.distinct

def erase (m : AssocMap κ α) (k : κ) : AssocMap κ α := m.retain (fun k' => k' ≠ k)

/-- The entry of a key, made with this value when there is none. -/
def orInsert (m : AssocMap κ α) (k : κ) (v : α) : AssocMap κ α := if m.contains k then m else m.insert k v

def modify (m : AssocMap κ α) (k : κ) (f : α → α) : AssocMap κ α :=
  match m.get? k with
  | some v => m.insert k (f v)
  | none => m

def values (m : AssocMap κ α) : List α := m.entries.map Prod.snd

@[simp] theorem get?_empty (k : κ) : (empty : AssocMap κ α).get? k = none := rfl

theorem get?_insert (m : AssocMap κ α) (k k' : κ) (v : α) :
    (m.insert k v).get? k' = if k' = k then some v else m.get? k' := lookup_put k k' v m.entries

theorem get?_retain (m : AssocMap κ α) (keep : κ → Bool) (k : κ) :
    (m.retain keep).get? k = if keep k then m.get? k else none := lookup_filter keep k m.entries

theorem get?_erase (m : AssocMap κ α) (k k' : κ) :
    (m.erase k).get? k' = if k' = k then none else m.get? k' := by
  simp only [erase,get?_retain,decide_not,Bool.not_eq_true']
  by_cases same : k' = k <;> simp [same]

theorem get?_orInsert (m : AssocMap κ α) (k k' : κ) (v : α) :
    (m.orInsert k v).get? k' = if k' = k then some ((m.get? k).getD v) else m.get? k' := by
  unfold orInsert contains
  cases found : m.get? k with
  | none => simp [get?_insert]
  | some v' =>
    by_cases same : k' = k
    · simp [same,found]
    · simp [same]

theorem get?_modify (m : AssocMap κ α) (k k' : κ) (f : α → α) :
    (m.modify k f).get? k' = if k' = k then (m.get? k).map f else m.get? k' := by
  unfold modify
  split
  · next v found => rw [get?_insert,found,Option.map_some]
  · next missing =>
    by_cases same : k' = k
    · rw [if_pos same,missing,same,missing,Option.map_none]
    · rw [if_neg same]

theorem mem_values_iff (m : AssocMap κ α) (v : α) : v ∈ m.values ↔ ∃ k, m.get? k = some v := by
  simp only [values,List.mem_map,Prod.exists]
  constructor
  · rintro ⟨k,v',member,rfl⟩
    exact ⟨k,lookup_of_mem m.distinct member⟩
  · rintro ⟨k,found⟩
    exact ⟨k,v,lookup_mem found,rfl⟩

theorem contains_iff (m : AssocMap κ α) (k : κ) : m.contains k = true ↔ k ∈ m.entries.map Prod.fst := by
  rw [contains,Option.isSome_iff_ne_none,get?,ne_eq,lookup_eq_none_iff,not_not]

theorem size_insert (m : AssocMap κ α) (k : κ) (v : α) :
    (m.insert k v).size = if m.contains k then m.size else m.size + 1 := by
  have keys := congrArg List.length (keys_put k v m.entries)
  rw [List.length_map] at keys
  simp only [size,insert,contains_iff]
  rw [keys]
  split <;> simp

theorem size_erase_le (m : AssocMap κ α) (k : κ) : (m.erase k).size ≤ m.size := List.length_filter_le _ _

theorem size_pos {k : κ} {v : α} (found : m.get? k = some v) : 0 < m.size :=
  List.length_pos_of_mem (lookup_mem found)

theorem exists_of_size_pos (nonempty : 0 < m.size) : ∃ k v, m.get? k = some v := by
  obtain ⟨⟨k,v⟩,member⟩ := List.exists_mem_of_length_pos nonempty
  exact ⟨k,v,lookup_of_mem m.distinct member⟩

theorem eq_empty_of_get? (absent : ∀ k, m.get? k = none) : m = empty := by
  apply ext_entries
  apply List.eq_nil_iff_length_eq_zero.mpr
  by_contra nonempty
  obtain ⟨k,v,found⟩ := exists_of_size_pos (Nat.pos_of_ne_zero nonempty)
  rw [absent] at found
  cases found

end AssocMap

end Streamhaul
