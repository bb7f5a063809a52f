import Streamhaul.Text

/-! The UTF-8 decoder of the Encoding Standard, in the mode that fails on the first error, as a
machine over bytes. It accepts the UTF-8 encodings of texts and returns their code points. -/
namespace Streamhaul.Utf8

structure Decoder where
  codePoint : Nat
  seen : Nat
  needed : Nat
  lower : Nat
  upper : Nat

inductive Answer where
  | more
  | error
  | codePoint (n : Nat)

namespace Decoder

def start : Decoder := ⟨0,0,0,0x80,0xBF⟩

/-- Takes one byte. Masking by `0x1F` and its likes is a remainder, shifting by six a product. -/
def handle (d : Decoder) (byte : UInt8) : Answer × Decoder :=
  let b := byte.toNat
  if d.needed = 0 then
    if b ≤ 0x7F then (.codePoint b,d)
    else if 0xC2 ≤ b ∧ b ≤ 0xDF then (.more,{ d with needed := 1, codePoint := b % 32 })
    else if 0xE0 ≤ b ∧ b ≤ 0xEF then
      (.more,{ d with
        lower := if b = 0xE0 then 0xA0 else d.lower
        upper := if b = 0xED then 0x9F else d.upper
        needed := 2
        codePoint := b % 16 })
    else if 0xF0 ≤ b ∧ b ≤ 0xF4 then
      (.more,{ d with
        lower := if b = 0xF0 then 0x90 else d.lower
        upper := if b = 0xF4 then 0x8F else d.upper
        needed := 3
        codePoint := b % 8 })
    else (.error,d)
  else if ¬(d.lower ≤ b ∧ b ≤ d.upper) then (.error,start)
  else
    let codePoint := d.codePoint * 64 + b % 64
    let seen := d.seen + 1
    if seen ≠ d.needed then (.more,⟨codePoint,seen,d.needed,0x80,0xBF⟩)
    else (.codePoint codePoint,start)

/-- Decodes to the end of the input; absent on an error. -/
def run : Decoder → Bytes → Option (List Nat)
  | d, [] => if d.needed = 0 then some [] else none
  | d, byte :: rest =>
    match d.handle byte with
    | (.error,_) => none
    | (.more,d) => run d rest
    | (.codePoint n,d) => (run d rest).map (n :: ·)

end Decoder

open Decoder

/-- A leading byte order mark is not part of the text. -/
def dropBom : List Nat → List Nat
  | 0xFEFF :: rest => rest
  | codePoints => codePoints

/-- `TextDecoder.decode` in fatal mode. -/
def textDecode (bytes : Bytes) : Option Text := (run start bytes).map (fun codePoints => (dropBom codePoints).map Char.ofNat)

/-- The decoder in the middle of a character, and the bytes of the character it has seen. -/
inductive Front : Decoder → Bytes → Prop
  | none : Front start []
  | lead2 (b : UInt8) : 0xC2 ≤ b.toNat → b.toNat ≤ 0xDF → Front ⟨b.toNat % 32,0,1,0x80,0xBF⟩ [b]
  | lead3 (b : UInt8) : 0xE0 ≤ b.toNat → b.toNat ≤ 0xEF →
      Front ⟨b.toNat % 16,0,2,if b.toNat = 0xE0 then 0xA0 else 0x80,if b.toNat = 0xED then 0x9F else 0xBF⟩ [b]
  | mid3 (b c : UInt8) : 0xE0 ≤ b.toNat → b.toNat ≤ 0xEF → (if b.toNat = 0xE0 then 0xA0 else 0x80) ≤ c.toNat →
      c.toNat ≤ (if b.toNat = 0xED then 0x9F else 0xBF) → Front ⟨b.toNat % 16 * 64 + c.toNat % 64,1,2,0x80,0xBF⟩ [b,c]
  | lead4 (b : UInt8) : 0xF0 ≤ b.toNat → b.toNat ≤ 0xF4 →
      Front ⟨b.toNat % 8,0,3,if b.toNat = 0xF0 then 0x90 else 0x80,if b.toNat = 0xF4 then 0x8F else 0xBF⟩ [b]
  | mid4 (b c : UInt8) : 0xF0 ≤ b.toNat → b.toNat ≤ 0xF4 → (if b.toNat = 0xF0 then 0x90 else 0x80) ≤ c.toNat →
      c.toNat ≤ (if b.toNat = 0xF4 then 0x8F else 0xBF) → Front ⟨b.toNat % 8 * 64 + c.toNat % 64,1,3,0x80,0xBF⟩ [b,c]
  | late4 (b c d : UInt8) : 0xF0 ≤ b.toNat → b.toNat ≤ 0xF4 → (if b.toNat = 0xF0 then 0x90 else 0x80) ≤ c.toNat →
      c.toNat ≤ (if b.toNat = 0xF4 then 0x8F else 0xBF) → 0x80 ≤ d.toNat → d.toNat ≤ 0xBF →
      Front ⟨(b.toNat % 8 * 64 + c.toNat % 64) * 64 + d.toNat % 64,2,3,0x80,0xBF⟩ [b,c,d]

variable {byte : UInt8} {d : Decoder} {n : Nat}

theorem toNat_ofNat (valid : n < 0xD800 ∨ 0xE000 ≤ n ∧ n < 0x110000) : (Char.ofNat n).toNat = n := by
  have isValid : n.isValidChar := by
    unfold Nat.isValidChar
    omega
  rw [Char.ofNat,dif_pos isValid]
  rfl

theorem ofNat_eq {b : UInt8} (same : n = b.toNat) : UInt8.ofNat n = b := by
  rw [same,UInt8.ofNat_toNat]

theorem encode_one {b : UInt8} (small : n ≤ 0x7F) (first : n = b.toNat) :
    String.utf8EncodeChar (Char.ofNat n) = [b] := by
  have value : (Char.ofNat n).val.toNat = n := toNat_ofNat (.inl (by omega))
  simp only [String.utf8EncodeChar,value]
  rw [if_pos small,ofNat_eq first]

theorem encode_two {b c : UInt8} (large : 0x7F < n) (small : n ≤ 0x7FF) (first : n / 64 + 0xC0 = b.toNat)
    (second : n % 64 + 0x80 = c.toNat) : String.utf8EncodeChar (Char.ofNat n) = [b,c] := by
  have value : (Char.ofNat n).val.toNat = n := toNat_ofNat (.inl (by omega))
  have whole : n / 64 % 32 + 192 = b.toNat := by omega
  simp only [String.utf8EncodeChar,value]
  rw [if_neg (Nat.not_le.mpr large),if_pos small,ofNat_eq whole,ofNat_eq second]

theorem encode_three {b c d : UInt8} (valid : n < 0xD800 ∨ 0xE000 ≤ n) (large : 0x7FF < n) (small : n ≤ 0xFFFF)
    (first : n / 4096 + 0xE0 = b.toNat) (second : n / 64 % 64 + 0x80 = c.toNat) (third : n % 64 + 0x80 = d.toNat) :
    String.utf8EncodeChar (Char.ofNat n) = [b,c,d] := by
  have value : (Char.ofNat n).val.toNat = n := toNat_ofNat (by omega)
  have whole : n / 4096 % 16 + 224 = b.toNat := by omega
  simp only [String.utf8EncodeChar,value]
  rw [if_neg (by omega),if_neg (Nat.not_le.mpr large),if_pos small,ofNat_eq whole,ofNat_eq second,ofNat_eq third]

theorem encode_four {b c d e : UInt8} (large : 0xFFFF < n) (small : n < 0x110000)
    (first : n / 262144 + 0xF0 = b.toNat) (second : n / 4096 % 64 + 0x80 = c.toNat) (third : n / 64 % 64 + 0x80 = d.toNat)
    (fourth : n % 64 + 0x80 = e.toNat) : String.utf8EncodeChar (Char.ofNat n) = [b,c,d,e] := by
  have value : (Char.ofNat n).val.toNat = n := toNat_ofNat (by omega)
  have whole : n / 262144 % 8 + 240 = b.toNat := by omega
  simp only [String.utf8EncodeChar,value]
  rw [if_neg (by omega),if_neg (by omega),if_neg (Nat.not_le.mpr large),ofNat_eq whole,ofNat_eq second,ofNat_eq third,
    ofNat_eq fourth]

theorem exists_two {b c : UInt8} (low : 0xC2 ≤ b.toNat) (high : b.toNat ≤ 0xDF) (cont : 0x80 ≤ c.toNat ∧ c.toNat ≤ 0xBF) :
    ∃ char : Char, char.toNat = b.toNat % 32 * 64 + c.toNat % 64 ∧ String.utf8EncodeChar char = [b,c] := by
  refine ⟨Char.ofNat (b.toNat % 32 * 64 + c.toNat % 64),toNat_ofNat (.inl (by omega)),?_⟩
  exact encode_two (by omega) (by omega) (by omega) (by omega)

/-- Three bytes in range are a character: the second bounds keep out what is too small and the surrogates. -/
theorem exists_three {b c d : UInt8} (low : 0xE0 ≤ b.toNat) (high : b.toNat ≤ 0xEF)
    (above : (if b.toNat = 0xE0 then 0xA0 else 0x80) ≤ c.toNat) (below : c.toNat ≤ (if b.toNat = 0xED then 0x9F else 0xBF))
    (cont : 0x80 ≤ d.toNat ∧ d.toNat ≤ 0xBF) :
    ∃ char : Char, char.toNat = (b.toNat % 16 * 64 + c.toNat % 64) * 64 + d.toNat % 64 ∧
      String.utf8EncodeChar char = [b,c,d] := by
  have valid : (b.toNat % 16 * 64 + c.toNat % 64) * 64 + d.toNat % 64 < 0xD800 ∨
      0xE000 ≤ (b.toNat % 16 * 64 + c.toNat % 64) * 64 + d.toNat % 64 := by
    split_ifs at above below <;> omega
  refine ⟨Char.ofNat ((b.toNat % 16 * 64 + c.toNat % 64) * 64 + d.toNat % 64),toNat_ofNat (by omega),?_⟩
  apply encode_three valid
  all_goals split_ifs at above below <;> omega

/-- Four bytes in range are a character: the second bounds keep out what is too small and too large. -/
theorem exists_four {b c d e : UInt8} (low : 0xF0 ≤ b.toNat) (high : b.toNat ≤ 0xF4)
    (above : (if b.toNat = 0xF0 then 0x90 else 0x80) ≤ c.toNat) (below : c.toNat ≤ (if b.toNat = 0xF4 then 0x8F else 0xBF))
    (cont : 0x80 ≤ d.toNat ∧ d.toNat ≤ 0xBF) (cont' : 0x80 ≤ e.toNat ∧ e.toNat ≤ 0xBF) :
    ∃ char : Char, char.toNat = ((b.toNat % 8 * 64 + c.toNat % 64) * 64 + d.toNat % 64) * 64 + e.toNat % 64 ∧
      String.utf8EncodeChar char = [b,c,d,e] := by
  have bound : ((b.toNat % 8 * 64 + c.toNat % 64) * 64 + d.toNat % 64) * 64 + e.toNat % 64 < 0x110000 ∧
      0xFFFF < ((b.toNat % 8 * 64 + c.toNat % 64) * 64 + d.toNat % 64) * 64 + e.toNat % 64 := by
    split_ifs at above below <;> omega
  refine ⟨Char.ofNat (((b.toNat % 8 * 64 + c.toNat % 64) * 64 + d.toNat % 64) * 64 + e.toNat % 64),toNat_ofNat (by omega),?_⟩
  apply encode_four bound.2 bound.1
  all_goals split_ifs at above below <;> omega

theorem handle_outside (busy : d.needed ≠ 0) (outside : ¬(d.lower ≤ byte.toNat ∧ byte.toNat ≤ d.upper)) :
    d.handle byte = (.error,start) := by
  unfold handle
  rw [if_neg busy,if_pos outside]

theorem handle_more (busy : d.needed ≠ 0) (inside : d.lower ≤ byte.toNat ∧ byte.toNat ≤ d.upper)
    (early : d.seen + 1 ≠ d.needed) :
    d.handle byte = (.more,⟨d.codePoint * 64 + byte.toNat % 64,d.seen + 1,d.needed,0x80,0xBF⟩) := by
  unfold handle
  rw [if_neg busy,if_neg (not_not.mpr inside)]
  exact if_pos early

theorem handle_last (busy : d.needed ≠ 0) (inside : d.lower ≤ byte.toNat ∧ byte.toNat ≤ d.upper)
    (last : d.seen + 1 = d.needed) : d.handle byte = (.codePoint (d.codePoint * 64 + byte.toNat % 64),start) := by
  unfold handle
  rw [if_neg busy,if_neg (not_not.mpr inside)]
  exact if_neg (not_not.mpr last)

section First

variable {byte : UInt8}

theorem handle_ascii (ascii : byte.toNat ≤ 0x7F) : start.handle byte = (.codePoint byte.toNat,start) := by
  simp only [handle,start,if_true]
  rw [if_pos ascii]

theorem handle_two (low : 0xC2 ≤ byte.toNat) (high : byte.toNat ≤ 0xDF) :
    start.handle byte = (.more,⟨byte.toNat % 32,0,1,0x80,0xBF⟩) := by
  simp only [handle,start,if_true]
  rw [if_neg (by omega),if_pos ⟨low,high⟩]

theorem handle_three (low : 0xE0 ≤ byte.toNat) (high : byte.toNat ≤ 0xEF) :
    start.handle byte = (.more,⟨byte.toNat % 16,0,2,if byte.toNat = 0xE0 then 0xA0 else 0x80,
      if byte.toNat = 0xED then 0x9F else 0xBF⟩) := by
  simp only [handle,start,if_true]
  rw [if_neg (by omega),if_neg (by omega),if_pos ⟨low,high⟩]

theorem handle_four (low : 0xF0 ≤ byte.toNat) (high : byte.toNat ≤ 0xF4) :
    start.handle byte = (.more,⟨byte.toNat % 8,0,3,if byte.toNat = 0xF0 then 0x90 else 0x80,
      if byte.toNat = 0xF4 then 0x8F else 0xBF⟩) := by
  simp only [handle,start,if_true]
  rw [if_neg (by omega),if_neg (by omega),if_neg (by omega),if_pos ⟨low,high⟩]

/-- What the first byte of a character does. -/
theorem handle_start (byte : UInt8) :
    (start.handle byte).1 = .error ∨
      ((start.handle byte).1 = .more ∧ Front (start.handle byte).2 [byte]) ∨
      byte.toNat ≤ 0x7F ∧ start.handle byte = (.codePoint byte.toNat,start) := by
  by_cases ascii : byte.toNat ≤ 0x7F
  · exact .inr (.inr ⟨ascii,handle_ascii ascii⟩)
  by_cases two : 0xC2 ≤ byte.toNat ∧ byte.toNat ≤ 0xDF
  · rw [handle_two two.1 two.2]
    exact .inr (.inl ⟨rfl,.lead2 byte two.1 two.2⟩)
  by_cases three : 0xE0 ≤ byte.toNat ∧ byte.toNat ≤ 0xEF
  · rw [handle_three three.1 three.2]
    exact .inr (.inl ⟨rfl,.lead3 byte three.1 three.2⟩)
  by_cases four : 0xF0 ≤ byte.toNat ∧ byte.toNat ≤ 0xF4
  · rw [handle_four four.1 four.2]
    exact .inr (.inl ⟨rfl,.lead4 byte four.1 four.2⟩)
  left
  simp only [handle,start,if_true]
  rw [if_neg ascii,if_neg two,if_neg three,if_neg four]

end First

/-- What one byte does to the decoder: it completes a character, or stays in the middle of one. -/
theorem handle_front {front : Bytes} (middle : Front d front) (byte : UInt8) :
    (d.handle byte).1 = .error ∨
      ((d.handle byte).1 = .more ∧ Front (d.handle byte).2 (front ++ [byte])) ∨
      ∃ c : Char, d.handle byte = (.codePoint c.toNat,start) ∧ String.utf8EncodeChar c = front ++ [byte] := by
  by_cases inside : d.needed ≠ 0 ∧ ¬(d.lower ≤ byte.toNat ∧ byte.toNat ≤ d.upper)
  · left
    rw [handle_outside inside.1 inside.2]
  have inRange (busy : d.needed ≠ 0) : d.lower ≤ byte.toNat ∧ byte.toNat ≤ d.upper := not_not.mp (not_and.mp inside busy)
  cases middle with
  | none =>
    rcases handle_start byte with failed | continued | ⟨ascii,step⟩
    · exact .inl failed
    · exact .inr (.inl continued)
    · refine .inr (.inr ⟨Char.ofNat byte.toNat,?_,encode_one ascii rfl⟩)
      rw [toNat_ofNat (.inl (by omega))]
      exact step
  | lead2 b low high =>
    have range := inRange (Nat.succ_ne_zero _)
    obtain ⟨char,value,encoded⟩ := exists_two low high range
    refine .inr (.inr ⟨char,?_,encoded⟩)
    rw [handle_last (Nat.succ_ne_zero _) range rfl,value]
  | lead3 b low high =>
    have range := inRange (Nat.succ_ne_zero _)
    refine .inr (.inl ?_)
    rw [handle_more (Nat.succ_ne_zero _) range (by simp)]
    exact ⟨rfl,.mid3 b byte low high range.1 range.2⟩
  | mid3 b c low high above below =>
    have range := inRange (Nat.succ_ne_zero _)
    obtain ⟨char,value,encoded⟩ := exists_three low high above below range
    refine .inr (.inr ⟨char,?_,encoded⟩)
    rw [handle_last (Nat.succ_ne_zero _) range rfl,value]
  | lead4 b low high =>
    have range := inRange (Nat.succ_ne_zero _)
    refine .inr (.inl ?_)
    rw [handle_more (Nat.succ_ne_zero _) range (by simp)]
    exact ⟨rfl,.mid4 b byte low high range.1 range.2⟩
  | mid4 b c low high above below =>
    have range := inRange (Nat.succ_ne_zero _)
    refine .inr (.inl ?_)
    rw [handle_more (Nat.succ_ne_zero _) range (by simp)]
    exact ⟨rfl,.late4 b c byte low high above below range.1 range.2⟩
  | late4 b c d low high above below above' below' =>
    have range := inRange (Nat.succ_ne_zero _)
    obtain ⟨char,value,encoded⟩ := exists_four low high above below ⟨above',below'⟩ range
    refine .inr (.inr ⟨char,?_,encoded⟩)
    rw [handle_last (Nat.succ_ne_zero _) range rfl,value]

theorem run_sound {front bytes : Bytes} {codePoints : List Nat} (middle : Front d front)
    (decoded : run d bytes = some codePoints) :
    ∃ s : Text, front ++ bytes = s.asBytes ∧ codePoints = s.map Char.toNat := by
  induction bytes generalizing d front codePoints with
  | nil =>
    cases middle with
    | none =>
      refine ⟨[],rfl,?_⟩
      have ended : some [] = some codePoints := decoded
      exact (Option.some.inj ended).symm
    | lead2 | lead3 | mid3 | lead4 | mid4 | late4 => cases decoded
  | cons byte rest ih =>
    unfold run at decoded
    rcases handle_front middle byte with failed | ⟨continued,next⟩ | ⟨c,completed,encoded⟩
    · obtain ⟨d',step⟩ : ∃ d', d.handle byte = (.error,d') := ⟨_,Prod.ext failed rfl⟩
      rw [step] at decoded
      cases decoded
    · have step : d.handle byte = (.more,(d.handle byte).2) := Prod.ext continued rfl
      rw [step] at decoded
      obtain ⟨s,bytes,same⟩ := ih next decoded
      rw [List.append_assoc] at bytes
      exact ⟨s,bytes,same⟩
    · rw [completed] at decoded
      obtain ⟨later,following,rfl⟩ := Option.map_eq_some_iff.mp decoded
      obtain ⟨s,bytes,rfl⟩ := ih .none following
      refine ⟨c :: s,?_,rfl⟩
      rw [List.nil_append] at bytes
      have split : Text.asBytes (c :: s) = String.utf8EncodeChar c ++ Text.asBytes s := rfl
      rw [split,encoded,← bytes,List.append_assoc]
      rfl

theorem run_more {d next : Decoder} (step : d.handle byte = (.more,next)) (rest : Bytes) :
    run d (byte :: rest) = run next rest := by
  rw [run,step]

theorem run_last {d next : Decoder} (step : d.handle byte = (.codePoint n,next)) (rest : Bytes) :
    run d (byte :: rest) = (run next rest).map (n :: ·) := by
  rw [run,step]

theorem toNat_byte (small : n < 256) : (UInt8.ofNat n).toNat = n := UInt8.toNat_ofNat_of_lt' small

theorem toNat_continuation (n : Nat) : (UInt8.ofNat (n % 64 + 128)).toNat = n % 64 + 128 := toNat_byte (by omega)

theorem run_two (large : 0x7F < n) (small : n ≤ 0x7FF) (rest : Bytes) :
    run start (UInt8.ofNat (n / 64 % 32 + 192) :: UInt8.ofNat (n % 64 + 128) :: rest) = (run start rest).map (n :: ·) := by
  have first : (UInt8.ofNat (n / 64 % 32 + 192)).toNat = n / 64 + 192 := (toNat_byte (by omega)).trans (by omega)
  have second := toNat_continuation n
  have value : (n / 64 + 192) % 32 * 64 + (n % 64 + 128) % 64 = n := by omega
  rw [run_more (handle_two (by omega) (by omega)),
    run_last (handle_last (Nat.succ_ne_zero _) ⟨by simp only; omega,by simp only; omega⟩ rfl)]
  simp only [first,second,value]

theorem run_three (valid : n < 0xD800 ∨ 0xDFFF < n) (large : 0x7FF < n) (small : n ≤ 0xFFFF) (rest : Bytes) :
    run start (UInt8.ofNat (n / 4096 % 16 + 224) :: UInt8.ofNat (n / 64 % 64 + 128) :: UInt8.ofNat (n % 64 + 128) :: rest) =
      (run start rest).map (n :: ·) := by
  have first : (UInt8.ofNat (n / 4096 % 16 + 224)).toNat = n / 4096 + 224 := (toNat_byte (by omega)).trans (by omega)
  have second := toNat_continuation (n / 64)
  have third := toNat_continuation n
  have value : ((n / 4096 + 224) % 16 * 64 + (n / 64 % 64 + 128) % 64) * 64 + (n % 64 + 128) % 64 = n := by omega
  rw [run_more (handle_three (by omega) (by omega)),
    run_more (handle_more (Nat.succ_ne_zero _) ⟨by simp only; split_ifs <;> omega,by simp only; split_ifs <;> omega⟩ (by simp)),
    run_last (handle_last (Nat.succ_ne_zero _) ⟨by simp only; omega,by simp only; omega⟩ rfl)]
  simp only [first,second,third,value]

theorem run_four (large : 0xFFFF < n) (small : n < 0x110000) (rest : Bytes) :
    run start (UInt8.ofNat (n / 262144 % 8 + 240) :: UInt8.ofNat (n / 4096 % 64 + 128) :: UInt8.ofNat (n / 64 % 64 + 128) ::
      UInt8.ofNat (n % 64 + 128) :: rest) = (run start rest).map (n :: ·) := by
  have first : (UInt8.ofNat (n / 262144 % 8 + 240)).toNat = n / 262144 + 240 := (toNat_byte (by omega)).trans (by omega)
  have second := toNat_continuation (n / 4096)
  have third := toNat_continuation (n / 64)
  have fourth := toNat_continuation n
  have value : (((n / 262144 + 240) % 8 * 64 + (n / 4096 % 64 + 128) % 64) * 64 + (n / 64 % 64 + 128) % 64) * 64 +
      (n % 64 + 128) % 64 = n := by omega
  rw [run_more (handle_four (by omega) (by omega)),
    run_more (handle_more (Nat.succ_ne_zero _) ⟨by simp only; split_ifs <;> omega,by simp only; split_ifs <;> omega⟩ (by simp)),
    run_more (handle_more (Nat.succ_ne_zero _) ⟨by simp only; omega,by simp only; omega⟩ (by simp)),
    run_last (handle_last (Nat.succ_ne_zero _) ⟨by simp only; omega,by simp only; omega⟩ rfl)]
  simp only [first,second,third,fourth,value]

theorem run_encode (c : Char) (rest : Bytes) :
    run start (String.utf8EncodeChar c ++ rest) = (run start rest).map (c.toNat :: ·) := by
  have valid : c.toNat < 0xD800 ∨ 0xDFFF < c.toNat ∧ c.toNat < 0x110000 := c.valid
  have value : c.val.toNat = c.toNat := rfl
  unfold String.utf8EncodeChar
  simp only [value]
  generalize c.toNat = n at *
  split_ifs with one two three
  · have byte : (UInt8.ofNat n).toNat = n := toNat_byte (by omega)
    rw [List.singleton_append,run_last (handle_ascii (byte.trans_le one)),byte]
  · exact run_two (Nat.not_le.mp one) two rest
  · exact run_three (by omega) (Nat.not_le.mp two) three rest
  · exact run_four (Nat.not_le.mp three) (by omega) rest

theorem run_asBytes (s : Text) : run start s.asBytes = some (s.map Char.toNat) := by
  induction s with
  | nil => rfl
  | cons c rest ih =>
    have split : Text.asBytes (c :: rest) = String.utf8EncodeChar c ++ Text.asBytes rest := rfl
    rw [split,run_encode,ih]
    rfl

/-- The decoder accepts exactly what is UTF-8, and agrees on the code points. -/
theorem run_eq (bytes : Bytes) : run start bytes = (Text.fromUtf8 bytes).map (List.map Char.toNat) := by
  cases decoded : run start bytes with
  | some codePoints =>
    obtain ⟨s,same,rfl⟩ := run_sound .none decoded
    rw [List.nil_append] at same
    rw [same,Text.fromUtf8_asBytes]
    rfl
  | none =>
    cases standard : Text.fromUtf8 bytes with
    | none => rfl
    | some s =>
      rw [← Text.asBytes_of_fromUtf8 standard,run_asBytes] at decoded
      cases decoded

def stripBom : Text → Text
  | [] => []
  | c :: rest => if c.toNat = 0xFEFF then rest else c :: rest

theorem dropBom_map (s : Text) : (dropBom (s.map Char.toNat)).map Char.ofNat = stripBom s := by
  have back : ∀ s : Text, (s.map Char.toNat).map Char.ofNat = s := by
    intro s
    rw [List.map_map]
    exact List.map_id'' (fun c => Char.ofNat_toNat c) s
  cases s with
  | nil => rfl
  | cons c rest =>
    rw [stripBom]
    split_ifs with bom
    · rw [List.map_cons,bom]
      exact back rest
    · have kept : dropBom ((c :: rest).map Char.toNat) = (c :: rest).map Char.toNat := by
        rw [List.map_cons,dropBom]
        intro later same
        exact bom (List.cons.inj same).1
      rw [kept,back]

/-- `TextDecoder` decodes UTF-8 and takes a leading byte order mark away. -/
theorem textDecode_eq (bytes : Bytes) : textDecode bytes = (Text.fromUtf8 bytes).map stripBom := by
  rw [textDecode,run_eq,Option.map_map]
  congr 1
  exact funext dropBom_map

end Streamhaul.Utf8
