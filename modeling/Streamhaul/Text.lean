import Mathlib.Data.List.DropRight
import Streamhaul.Bytes

/-! Text as a list of Unicode scalar values, with the string operations of the Rust
standard library that the parsers use. Lengths are UTF-8 byte counts. -/
namespace Streamhaul

abbrev Text := List Char

namespace Text

def len (s : Text) : Nat := (s.map Char.utf8Size).sum

/-- The `White_Space` property of Unicode. -/
def isWhitespace (c : Char) : Bool :=
  let n := c.toNat
  (9 ≤ n && n ≤ 13) || n == 0x20 || n == 0x85 || n == 0xa0 || n == 0x1680 ||
  (0x2000 ≤ n && n ≤ 0x200a) || n == 0x2028 || n == 0x2029 || n == 0x202f || n == 0x205f || n == 0x3000

def split (separator : Char) (s : Text) : List Text := s.splitOn separator

def trimEndMatches (c : Char) (s : Text) : Text := s.rdropWhile (· == c)

def trim (s : Text) : Text := (s.dropWhile isWhitespace).rdropWhile isWhitespace

def stripPrefix (s start : Text) : Option Text :=
  if start.isPrefixOf s then some (s.drop start.length) else none

/-- `splitn(2, char::is_whitespace)`: the part before the first white space, and the
part after it when there is one. -/
def splitWhitespace2 (s : Text) : Text × Option Text :=
  match s.span (fun c => !isWhitespace c) with
  | (first,[]) => (first,none)
  | (first,_ :: rest) => (first,some rest)

/-- `split_once`: the parts around the first separator. -/
def splitOnce (separator : Char) (s : Text) : Option (Text × Text) :=
  match s.span (fun c => c != separator) with
  | (_,[]) => none
  | (first,_ :: rest) => some (first,rest)

def eqIgnoreAsciiCase (a b : Text) : Bool := a.map Char.toLower == b.map Char.toLower

/-- `to_digit(16)`. -/
def toDigit16 (c : Char) : Option Nat :=
  if '0' ≤ c ∧ c ≤ '9' then some (c.toNat - 48)
  else if 'a' ≤ c ∧ c ≤ 'f' then some (c.toNat - 87)
  else if 'A' ≤ c ∧ c ≤ 'F' then some (c.toNat - 55)
  else none

/-- `u8::from_str_radix(_, 16)`; like every integer parser of the library it takes a sign in front. -/
def u8FromStrRadix16 (s : Text) : Option UInt8 :=
  match s with
  | [] => none
  | c :: rest =>
    if (c = '+' ∨ c = '-') ∧ rest = [] then none
    else
      let digits := if c = '+' then rest else s
      (digits.foldlM (fun value d => do
        let digit ← toDigit16 d
        if value * 16 + digit < 256 then some (value * 16 + digit) else none) 0).map UInt8.ofNat

def toAsciiLowercase (s : Text) : Text := s.map Char.toLower

/-- `lines`: what is in front of each line feed, without a carriage return at its end, and what is
behind the last one unless it is empty. -/
def lines (s : Text) : List Text :=
  let parts := s.split '\n'
  parts.dropLast.map (fun line => if line.getLast? = some '\r' then line.dropLast else line) ++
    parts.getLast?.toList.filter (fun line => !line.isEmpty)

def asBytes (s : Text) : Bytes := s.flatMap String.utf8EncodeChar

/-- `String::from_utf8`; absent when the bytes are not UTF-8. -/
def fromUtf8 (bytes : Bytes) : Option Text := bytes.toByteArray.utf8Decode?.map Array.toList

theorem len_append (first second : Text) : len (first ++ second) = first.len + second.len := by
  simp [len]

theorem length_asBytes (s : Text) : s.asBytes.length = s.len := by
  induction s with
  | nil => rfl
  | cons c rest ih =>
    have split : asBytes (c :: rest) = String.utf8EncodeChar c ++ asBytes rest := rfl
    rw [split,List.length_append,ih,String.length_utf8EncodeChar]
    simp [len]

@[simp] theorem fromUtf8_asBytes (s : Text) : fromUtf8 s.asBytes = some s := by
  have whole : s.asBytes.toByteArray = s.utf8Encode := rfl
  rw [fromUtf8,whole,List.utf8Decode?_utf8Encode]
  rfl

theorem asBytes_of_fromUtf8 {bytes : Bytes} {s : Text} (decoded : fromUtf8 bytes = some s) : s.asBytes = bytes := by
  obtain ⟨chars,found,rfl⟩ := Option.map_eq_some_iff.mp decoded
  have valid : bytes.toByteArray.utf8Decode?.isSome := by simp [found]
  have whole := @ByteArray.utf8Encode_get_utf8Decode? bytes.toByteArray valid
  simp only [found,Option.get_some] at whole
  apply List.toByteArray_inj.mp
  exact whole

theorem splitOnce_append {separator : Char} {first rest : Text} (absent : separator ∉ first) :
    splitOnce separator (first ++ separator :: rest) = some (first,rest) := by
  have span : (first ++ separator :: rest).span (fun c => c != separator) = (first,separator :: rest) := by
    rw [List.span_eq_takeWhile_dropWhile]
    have all : ∀ c ∈ first, (c != separator) = true := by
      intro c member
      simp only [bne_iff_ne]
      rintro rfl
      exact absent member
    rw [List.takeWhile_append_of_pos all,List.dropWhile_append_of_pos all]
    simp
  rw [splitOnce,span]

theorem toDigit16_eq (c : Char) : toDigit16 c =
    if 48 ≤ c.toNat ∧ c.toNat ≤ 57 then some (c.toNat - 48)
    else if 97 ≤ c.toNat ∧ c.toNat ≤ 102 then some (c.toNat - 87)
    else if 65 ≤ c.toNat ∧ c.toNat ≤ 70 then some (c.toNat - 55)
    else none := rfl

theorem utf8Size_eq_one {c : Char} (ascii : c.toNat ≤ 127) : c.utf8Size = 1 :=
  Char.utf8Size_eq_one_iff.mpr (UInt32.le_iff_toNat_le.mpr ascii)

/-- A hexadecimal digit is an ASCII character and stands for less than 16. -/
theorem toDigit16_some {c : Char} {digit : Nat} (found : toDigit16 c = some digit) : c.utf8Size = 1 ∧ digit < 16 := by
  rw [toDigit16_eq] at found
  have bounds : c.toNat ≤ 127 ∧ digit < 16 := by
    split_ifs at found <;> (obtain rfl := Option.some.inj found; omega)
  exact ⟨utf8Size_eq_one bounds.1,bounds.2⟩

theorem toNat_toLower (c : Char) :
    c.toLower.toNat = if 65 ≤ c.toNat ∧ c.toNat ≤ 90 then c.toNat + 32 else c.toNat := by
  by_cases upper : 65 ≤ c.toNat ∧ c.toNat ≤ 90
  · have shifted : c.toLower.val = c.val + 32 := congrArg Char.val (dif_pos upper)
    have small : c.val.toNat = c.toNat := rfl
    have value : c.toLower.toNat = (c.val.toNat + 32) % 2 ^ 32 := by
      rw [← Char.toNat_val,shifted,UInt32.toNat_add]
      rfl
    rw [if_pos upper]
    omega
  · have kept : c.toLower = c := dif_neg upper
    rw [kept,if_neg upper]

@[simp] theorem toDigit16_toLower (c : Char) : toDigit16 c.toLower = toDigit16 c := by
  rw [toDigit16_eq,toDigit16_eq,toNat_toLower]
  split_ifs <;> first | omega | exact congrArg some (by omega) | rfl

@[simp] theorem utf8Size_toLower (c : Char) : c.toLower.utf8Size = c.utf8Size := by
  by_cases upper : 65 ≤ c.toNat ∧ c.toNat ≤ 90
  · have lower := toNat_toLower c
    rw [if_pos upper] at lower
    rw [utf8Size_eq_one (show c.toNat ≤ 127 by omega),utf8Size_eq_one (show c.toLower.toNat ≤ 127 by omega)]
  · have kept : c.toLower = c := dif_neg upper
    rw [kept]

/-- Lowering the case makes no character that is not a lower-case letter. -/
theorem toLower_eq_iff {c d : Char} (other : d.toNat < 65) : c.toLower = d ↔ c = d := by
  rw [← Char.toNat_inj,← Char.toNat_inj,toNat_toLower]
  split_ifs <;> omega

theorem len_toAsciiLowercase (s : Text) : s.toAsciiLowercase.len = s.len := by
  simp [toAsciiLowercase,len,Function.comp_def]

/-- Lowering the case and splitting at a character that is not a letter commute. -/
theorem split_toAsciiLowercase {separator : Char} (other : separator.toNat < 65) (s : Text) :
    split separator s.toAsciiLowercase = (split separator s).map toAsciiLowercase := by
  induction s with
  | nil => rfl
  | cons c rest ih =>
    have parts : split separator (toAsciiLowercase (c :: rest)) =
        if c.toLower = separator then [] :: split separator (toAsciiLowercase rest)
        else (split separator (toAsciiLowercase rest)).modifyHead (c.toLower :: ·) := by
      simp [split,toAsciiLowercase,List.splitOn_cons_eq_if_modifyHead]
    have original : split separator (c :: rest) =
        if c = separator then [] :: split separator rest else (split separator rest).modifyHead (c :: ·) := by
      simp [split,List.splitOn_cons_eq_if_modifyHead]
    rw [parts,original,ih]
    by_cases here : c = separator
    · rw [if_pos ((toLower_eq_iff other).mpr here),if_pos here]
      rfl
    · rw [if_neg (mt (toLower_eq_iff other).mp here),if_neg here]
      cases split separator rest <;> rfl

end Text

end Streamhaul
