import Streamhaul.Text

/-! JavaScript strings: sequences of 16-bit code units, not always well formed. -/
namespace Streamhaul

abbrev JsString := List UInt16

namespace JsString

def ofChar (c : Char) : JsString :=
  if c.toNat < 0x10000 then [UInt16.ofNat c.toNat]
  else [UInt16.ofNat (0xD800 + (c.toNat - 0x10000) / 0x400),UInt16.ofNat (0xDC00 + (c.toNat - 0x10000) % 0x400)]

def ofText (s : Text) : JsString := s.flatMap ofChar

def isLeading (u : UInt16) : Bool := 0xD800 ≤ u.toNat && u.toNat ≤ 0xDBFF

def isTrailing (u : UInt16) : Bool := 0xDC00 ≤ u.toNat && u.toNat ≤ 0xDFFF

/-- A code unit on its own; a surrogate without its pair becomes the replacement character. -/
def single (u : UInt16) : Char := if isLeading u || isTrailing u then Char.ofNat 0xFFFD else Char.ofNat u.toNat

def paired (u v : UInt16) : Char := Char.ofNat (0x10000 + (u.toNat - 0xD800) * 0x400 + (v.toNat - 0xDC00))

/-- The conversion to a string of scalar values. -/
def scalars : JsString → Text
  | [] => []
  | [u] => [single u]
  | u :: v :: rest => if isLeading u && isTrailing v then paired u v :: scalars rest else single u :: scalars (v :: rest)

def textEncode (s : JsString) : Bytes := (scalars s).asBytes

theorem toNat_valid (c : Char) : c.toNat < 0xD800 ∨ 0xDFFF < c.toNat ∧ c.toNat < 0x110000 := c.valid

theorem toNat_unit {n : Nat} (small : n < 0x10000) : (UInt16.ofNat n).toNat = n := UInt16.toNat_ofNat_of_lt' small

theorem scalars_cons {u : UInt16} (plain : isLeading u = false) (rest : JsString) :
    scalars (u :: rest) = single u :: scalars rest := by
  cases rest with
  | nil => rfl
  | cons v rest => simp [scalars,plain]

theorem scalars_ofChar (c : Char) (rest : JsString) : scalars (ofChar c ++ rest) = c :: scalars rest := by
  have valid := toNat_valid c
  by_cases small : c.toNat < 0x10000
  · have unit := toNat_unit small
    have leading : isLeading (UInt16.ofNat c.toNat) = false := by
      simp only [isLeading,unit,Bool.and_eq_false_iff,decide_eq_false_iff_not]
      omega
    have trailing : isTrailing (UInt16.ofNat c.toNat) = false := by
      simp only [isTrailing,unit,Bool.and_eq_false_iff,decide_eq_false_iff_not]
      omega
    have same : single (UInt16.ofNat c.toNat) = c := by
      rw [single,leading,trailing,unit]
      exact Char.ofNat_toNat c
    rw [ofChar,if_pos small,List.singleton_append,scalars_cons leading,same]
  · have first := toNat_unit (show 0xD800 + (c.toNat - 0x10000) / 0x400 < 0x10000 by omega)
    have second := toNat_unit (show 0xDC00 + (c.toNat - 0x10000) % 0x400 < 0x10000 by omega)
    have leading : isLeading (UInt16.ofNat (0xD800 + (c.toNat - 0x10000) / 0x400)) = true := by
      simp only [isLeading,first,Bool.and_eq_true,decide_eq_true_eq]
      omega
    have trailing : isTrailing (UInt16.ofNat (0xDC00 + (c.toNat - 0x10000) % 0x400)) = true := by
      simp only [isTrailing,second,Bool.and_eq_true,decide_eq_true_eq]
      omega
    have number : 0x10000 + (0xD800 + (c.toNat - 0x10000) / 0x400 - 0xD800) * 0x400 +
        (0xDC00 + (c.toNat - 0x10000) % 0x400 - 0xDC00) = c.toNat := by
      omega
    have same : paired (UInt16.ofNat (0xD800 + (c.toNat - 0x10000) / 0x400))
        (UInt16.ofNat (0xDC00 + (c.toNat - 0x10000) % 0x400)) = c := by
      rw [paired,first,second,number]
      exact Char.ofNat_toNat c
    rw [ofChar,if_neg small,List.cons_append,List.singleton_append,scalars,leading,trailing]
    exact congrArg (· :: scalars rest) same

theorem scalars_ofText (s : Text) : scalars (ofText s) = s := by
  induction s with
  | nil => rfl
  | cons c rest ih =>
    have split : ofText (c :: rest) = ofChar c ++ ofText rest := rfl
    rw [split,scalars_ofChar,ih]

theorem textEncode_ofText (s : Text) : textEncode (ofText s) = s.asBytes := by
  rw [textEncode,scalars_ofText]

end JsString

end Streamhaul
