import Mathlib.Tactic

/-! Byte strings, fixed-width big-endian integers and saturating arithmetic.
Machine integers are natural numbers; encoding keeps the low `width` bytes, as a
fixed-width integer does, so the round trips carry the bound of the machine type. -/
namespace Streamhaul

abbrev Bytes := List UInt8

/-- Big-endian digits of `n`, the most significant byte first. -/
def toBeBytes : Nat → Nat → Bytes
  | 0, _ => []
  | width + 1, n => toBeBytes width (n / 256) ++ [UInt8.ofNat n]

def fromBeBytes (bytes : Bytes) : Nat := bytes.foldl (fun acc b => acc * 256 + b.toNat) 0

@[simp] theorem length_toBeBytes (width n : Nat) : (toBeBytes width n).length = width := by
  induction width generalizing n with
  | zero => rfl
  | succ width ih => simp [toBeBytes,ih]

@[simp] theorem fromBeBytes_nil : fromBeBytes [] = 0 := rfl

@[simp] theorem fromBeBytes_concat (bytes : Bytes) (b : UInt8) :
    fromBeBytes (bytes ++ [b]) = fromBeBytes bytes * 256 + b.toNat := by
  simp [fromBeBytes]

theorem fromBeBytes_lt (bytes : Bytes) : fromBeBytes bytes < 256 ^ bytes.length := by
  induction bytes using List.reverseRecOn with
  | nil => simp
  | append_singleton bytes b ih =>
    have digit := b.toNat_lt
    rw [fromBeBytes_concat,List.length_append,List.length_singleton,Nat.pow_succ]
    omega

/-- Encoding and decoding again reduces modulo the machine width. -/
theorem fromBeBytes_toBeBytes (width n : Nat) :
    fromBeBytes (toBeBytes width n) = n % 256 ^ width := by
  induction width generalizing n with
  | zero => exact (Nat.mod_one n).symm
  | succ width ih =>
    have split : n % (256 * 256 ^ width) = n % 256 + 256 * (n / 256 % 256 ^ width) := Nat.mod_mul
    simp only [toBeBytes,fromBeBytes_concat,ih,UInt8.toNat_ofNat']
    rw [pow_succ' 256,split]
    omega

theorem fromBeBytes_of_lt {width n : Nat} (fits : n < 256 ^ width) :
    fromBeBytes (toBeBytes width n) = n := by
  rw [fromBeBytes_toBeBytes,Nat.mod_eq_of_lt fits]

theorem toBeBytes_fromBeBytes (bytes : Bytes) : toBeBytes bytes.length (fromBeBytes bytes) = bytes := by
  induction bytes using List.reverseRecOn with
  | nil => rfl
  | append_singleton bytes b ih =>
    have digit := b.toNat_lt
    rw [List.length_append,List.length_singleton,toBeBytes,fromBeBytes_concat]
    have high : (fromBeBytes bytes * 256 + b.toNat) / 256 = fromBeBytes bytes := by omega
    have low : UInt8.ofNat (fromBeBytes bytes * 256 + b.toNat) = b := by
      apply UInt8.toNat_inj.mp
      simp only [UInt8.toNat_ofNat']
      omega
    rw [high,low,ih]

theorem toBeBytes_injective {width m n : Nat} (hm : m < 256 ^ width) (hn : n < 256 ^ width)
    (same : toBeBytes width m = toBeBytes width n) : m = n := by
  rw [← fromBeBytes_of_lt hm,same,fromBeBytes_of_lt hn]

def u16Max : Nat := 2 ^ 16 - 1
def u32Max : Nat := 2 ^ 32 - 1
def u64Max : Nat := 2 ^ 64 - 1

/-- Addition saturating at `limit`. Subtraction on `Nat` already saturates at zero. -/
def satAdd (limit a b : Nat) : Nat := min (a + b) limit

theorem satAdd_of_le {limit a b : Nat} (fits : a + b ≤ limit) : satAdd limit a b = a + b :=
  Nat.min_eq_left fits

theorem satAdd_le (limit a b : Nat) : satAdd limit a b ≤ limit := Nat.min_le_right _ _

def i64Max : Int := 2 ^ 63 - 1
def i64Min : Int := -2 ^ 63

/-- Signed 64-bit addition clamps at both ends. -/
def satAddI64 (a b : Int) : Int := max i64Min (min (a + b) i64Max)

def satMulI64 (a b : Int) : Int := max i64Min (min (a * b) i64Max)

/-- The slice `bytes[start..stop]`, absent when it leaves the string. -/
def slice? (bytes : Bytes) (start stop : Nat) : Option Bytes :=
  if start ≤ stop ∧ stop ≤ bytes.length then some ((bytes.drop start).take (stop - start))
  else none

theorem slice?_eq_some_iff {bytes part : Bytes} {start stop : Nat} :
    slice? bytes start stop = some part ↔
      start ≤ stop ∧ stop ≤ bytes.length ∧ (bytes.drop start).take (stop - start) = part := by
  simp only [slice?]
  split <;> simp_all

theorem take_drop_append (front middle rest : Bytes) :
    ((front ++ (middle ++ rest)).drop front.length).take middle.length = middle := by
  rw [List.drop_left,List.take_left]

theorem slice?_append (front middle rest : Bytes) :
    slice? (front ++ (middle ++ rest)) front.length (front.length + middle.length) = some middle := by
  rw [slice?_eq_some_iff]
  refine ⟨by omega,by simp,?_⟩
  rw [List.drop_left,Nat.add_sub_cancel_left,List.take_left]

def be16 (n : UInt16) : Bytes := toBeBytes 2 n.toNat
def be32 (n : UInt32) : Bytes := toBeBytes 4 n.toNat
def be64 (n : UInt64) : Bytes := toBeBytes 8 n.toNat

/-- The fixed-size field at an offset, for readers that have checked its bounds. -/
def vectorAt (n : Nat) (bytes : Bytes) (start : Nat) : Vector UInt8 n :=
  Vector.ofFn (fun i => bytes.getD (start + i.val) 0)

theorem getD_append (front rest : Bytes) (i : Nat) : (front ++ rest).getD (front.length + i) 0 = rest.getD i 0 := by
  rw [List.getD_eq_getElem?_getD,List.getElem?_append_right (by omega),Nat.add_sub_cancel_left,
    List.getD_eq_getElem?_getD]

theorem vectorAt_append {n : Nat} (front rest : Bytes) (v : Vector UInt8 n) :
    vectorAt n (front ++ (v.toList ++ rest)) front.length = v := by
  apply Vector.ext
  intro i bound
  simp only [vectorAt,Vector.getElem_ofFn,getD_append]
  rw [List.getD_eq_getElem?_getD,List.getElem?_append_left (by simpa using bound)]
  simp [bound]

theorem vectorAt_toList {n : Nat} (v : Vector UInt8 n) : vectorAt n v.toList 0 = v := by
  simpa using vectorAt_append [] [] v

theorem toList_vectorAt {n : Nat} {bytes : Bytes} {start : Nat} (bound : start + n ≤ bytes.length) :
    (vectorAt n bytes start).toList = (bytes.drop start).take n := by
  apply List.ext_getElem
  · simp only [Vector.length_toList,List.length_take,List.length_drop]
    omega
  · intro i before _
    rw [Vector.length_toList] at before
    have inside : start + i < bytes.length := by omega
    simp [vectorAt,inside]

theorem drop_split (bytes : Bytes) (start n : Nat) :
    bytes.drop start = (bytes.drop start).take n ++ bytes.drop (start + n) := by
  rw [← List.drop_drop,List.take_append_drop]

@[simp] theorem length_be16 (n : UInt16) : (be16 n).length = 2 := length_toBeBytes 2 _
@[simp] theorem length_be32 (n : UInt32) : (be32 n).length = 4 := length_toBeBytes 4 _
@[simp] theorem length_be64 (n : UInt64) : (be64 n).length = 8 := length_toBeBytes 8 _

@[simp] theorem ofNat_fromBeBytes_be16 (n : UInt16) : UInt16.ofNat (fromBeBytes (be16 n)) = n := by
  rw [be16,fromBeBytes_of_lt n.toNat_lt,UInt16.ofNat_toNat]

@[simp] theorem ofNat_fromBeBytes_be32 (n : UInt32) : UInt32.ofNat (fromBeBytes (be32 n)) = n := by
  rw [be32,fromBeBytes_of_lt n.toNat_lt,UInt32.ofNat_toNat]

@[simp] theorem ofNat_fromBeBytes_be64 (n : UInt64) : UInt64.ofNat (fromBeBytes (be64 n)) = n := by
  rw [be64,fromBeBytes_of_lt n.toNat_lt,UInt64.ofNat_toNat]

end Streamhaul
