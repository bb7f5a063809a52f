import Streamhaul.FileTransfer
import Streamhaul.Utf8Decoder

/-! The file-name rules of the browser, and how they compare with those of the host. The browser
decodes with `TextDecoder`, which takes a leading byte order mark away before the rules are applied. -/
namespace Streamhaul

structure FileTransferError where
  message : String
  deriving DecidableEq

def sanitizeFileName (name : Bytes) : Except FileTransferError Text :=
  if name.length = 0 then .error ⟨"offered file name rejected: empty"⟩
  else if maxFileName < name.length then .error ⟨"offered file name rejected: too long"⟩
  else
    match Utf8.textDecode name with
    | none => .error ⟨"offered file name rejected: not UTF-8"⟩
    | some decoded =>
      if decoded.contains '/' || decoded.contains '\\' then
        .error ⟨"offered file name rejected: contains a path separator"⟩
      else if decoded.any (fun c => c.toNat ≤ 0x1f || (0x7f ≤ c.toNat && c.toNat ≤ 0x9f)) then
        .error ⟨"offered file name rejected: contains a control character"⟩
      else if decoded = ['.'] ∨ decoded = ['.','.'] then .error ⟨"offered file name rejected: path traversal"⟩
      else .ok decoded

/-- A name without path separators and control characters. -/
structure PlainName (s : Text) : Prop where
  slash : '/' ∉ s
  backslash : '\\' ∉ s
  control : ∀ c ∈ s, isControl c = false

def dot : Text := ['.']
def dotDot : Text := ['.','.']

theorem filtered_ok_iff {ε : Type} {separator control traversal : ε} {decoded s : Text} {aliased : Prop} [Decidable aliased]
    (directory : aliased ↔ decoded = dot ∨ decoded = dotDot) :
    (if decoded.contains '/' || decoded.contains '\\' then .error separator
      else if decoded.any isControl then .error control
      else if aliased then .error traversal
      else Except.ok decoded) = .ok s ↔ decoded = s ∧ PlainName s ∧ s ≠ dot ∧ s ≠ dotDot := by
  have separated : (decoded.contains '/' || decoded.contains '\\') = true ↔ '/' ∈ decoded ∨ '\\' ∈ decoded := by
    simp only [Bool.or_eq_true,List.contains_iff_mem]
  split_ifs with slashed controlled special
  · refine iff_of_false (by simp) ?_
    rintro ⟨rfl,plain,-⟩
    exact (separated.mp slashed).elim plain.slash plain.backslash
  · refine iff_of_false (by simp) ?_
    rintro ⟨rfl,plain,-⟩
    obtain ⟨c,member,found⟩ := List.any_eq_true.mp controlled
    rw [plain.control c member] at found
    cases found
  · refine iff_of_false (by simp) ?_
    rintro ⟨rfl,-,notDot,notDotDot⟩
    exact (directory.mp special).elim notDot notDotDot
  · rw [Except.ok.injEq]
    refine ⟨?_,fun named => named.1⟩
    rintro rfl
    refine ⟨rfl,⟨fun here => slashed (separated.mpr (.inl here)),fun here => slashed (separated.mpr (.inr here)),?_⟩,
      fun same => special (directory.mpr (.inl same)),fun same => special (directory.mpr (.inr same))⟩
    intro c member
    exact Bool.eq_false_iff.mpr (fun found => controlled (List.any_eq_true.mpr ⟨c,member,found⟩))

variable {name : Bytes} {s : Text}

theorem decoded_ok_iff {ε : Type} {empty long invalid : ε} {decoded : Option Text} {vacant allowed : Prop}
    [Decidable vacant] {rules : Text → Except ε Text} (nothing : vacant ↔ name = [])
    (ruled : ∀ text, rules text = .ok s ↔ text = s ∧ allowed) :
    (if vacant then Except.error empty
      else if maxFileName < name.length then .error long
      else match decoded with
        | none => .error invalid
        | some text => rules text) = .ok s ↔
      (name ≠ [] ∧ name.length ≤ maxFileName ∧ decoded = some s) ∧ allowed := by
  by_cases blank : name = []
  · simp [nothing,blank]
  by_cases exceeds : maxFileName < name.length
  · simp [nothing,blank,exceeds]
  · cases decoded <;> simp [nothing,blank,exceeds,ruled,Nat.not_lt.mp exceeds]

theorem sanitizeName_ok_iff : sanitizeName name = .ok s ↔
    (name ≠ [] ∧ name.length ≤ maxFileName ∧ Text.fromUtf8 name = some s) ∧ PlainName s ∧ s ≠ dot ∧ s ≠ dotDot :=
  decoded_ok_iff List.isEmpty_iff (fun _ => filtered_ok_iff or_comm)

theorem sanitizeFileName_ok_iff : sanitizeFileName name = .ok s ↔
    (name ≠ [] ∧ name.length ≤ maxFileName ∧ (Text.fromUtf8 name).map Utf8.stripBom = some s) ∧
      PlainName s ∧ s ≠ dot ∧ s ≠ dotDot := by
  rw [← Utf8.textDecode_eq]
  exact decoded_ok_iff List.length_eq_zero_iff (fun _ => filtered_ok_iff Iff.rfl)

/-- Both sides accept the name and read the same text, which is not empty, or both reject it. -/
def NamesAgree (name : Bytes) : Prop :=
  (∀ s, sanitizeFileName name = .ok s ↔ sanitizeName name = .ok s) ∧ ∀ s, sanitizeName name = .ok s → s ≠ []

def bom : Char := Char.ofNat 0xFEFF

/-- A name that starts with a byte order mark and has no forbidden characters. -/
def MarkedName (name : Bytes) : Prop :=
  ∃ rest : Text, name = [0xEF,0xBB,0xBF] ++ rest.asBytes ∧ name.length ≤ maxFileName ∧ PlainName rest

theorem PlainName.cons_bom {rest : Text} : PlainName (bom :: rest) ↔ PlainName rest := by
  constructor
  · intro plain
    exact ⟨fun here => plain.slash (List.mem_cons_of_mem _ here),fun here => plain.backslash (List.mem_cons_of_mem _ here),
      fun c here => plain.control c (List.mem_cons_of_mem _ here)⟩
  · intro plain
    refine ⟨?_,?_,?_⟩
    · rw [List.mem_cons]
      rintro (mark | here)
      · exact absurd mark (by decide)
      · exact plain.slash here
    · rw [List.mem_cons]
      rintro (mark | here)
      · exact absurd mark (by decide)
      · exact plain.backslash here
    · rw [List.forall_mem_cons]
      exact ⟨by decide,plain.control⟩

theorem sanitizeName_ne_nil (accepted : sanitizeName name = .ok s) : s ≠ [] := by
  obtain ⟨⟨nonempty,-,decoded⟩,-⟩ := sanitizeName_ok_iff.mp accepted
  rintro rfl
  exact nonempty (Text.asBytes_of_fromUtf8 decoded).symm

/-- The two rules agree on every name but the acceptable ones that start with a byte order mark. -/
theorem names_agree_iff (name : Bytes) : NamesAgree name ↔ ¬MarkedName name := by
  constructor
  · rintro ⟨same,-⟩ ⟨rest,rfl,short,plain⟩
    have decoded : Text.fromUtf8 ([0xEF,0xBB,0xBF] ++ rest.asBytes) = some (bom :: rest) := Text.fromUtf8_asBytes (bom :: rest)
    have accepted : sanitizeName ([0xEF,0xBB,0xBF] ++ rest.asBytes) = .ok (bom :: rest) := by
      refine sanitizeName_ok_iff.mpr ⟨⟨by simp,short,decoded⟩,PlainName.cons_bom.mpr plain,?_,?_⟩
      · exact fun same => absurd (List.cons.inj same).1 (by decide)
      · exact fun same => absurd (List.cons.inj same).1 (by decide)
    obtain ⟨⟨-,-,stripped⟩,-⟩ := sanitizeFileName_ok_iff.mp ((same _).mpr accepted)
    rw [decoded] at stripped
    have shorter : rest = bom :: rest := Option.some.inj stripped
    exact absurd (congrArg List.length shorter) (by simp)
  · intro unmarked
    refine ⟨fun s => ?_,fun s => sanitizeName_ne_nil⟩
    rw [sanitizeName_ok_iff,sanitizeFileName_ok_iff]
    cases decoded : Text.fromUtf8 name with
    | none => rfl
    | some text =>
      cases text with
      | nil => rfl
      | cons c rest =>
        by_cases mark : c.toNat = 0xFEFF
        · obtain rfl : c = bom := by
            rw [bom,← mark,Char.ofNat_toNat]
          have bytes := Text.asBytes_of_fromUtf8 decoded
          have forbidden : ¬(name.length ≤ maxFileName ∧ PlainName rest) :=
            fun allowed => unmarked ⟨rest,bytes.symm,allowed.1,allowed.2⟩
          refine iff_of_false ?_ ?_
          · rintro ⟨⟨-,short,stripped⟩,plain,-⟩
            obtain rfl : rest = s := Option.some.inj stripped
            exact forbidden ⟨short,plain⟩
          · rintro ⟨⟨-,short,whole⟩,plain,-⟩
            exact forbidden ⟨short,PlainName.cons_bom.mp (Option.some.inj whole ▸ plain)⟩
        · have kept : Utf8.stripBom (c :: rest) = c :: rest := if_neg mark
          rw [Option.map_some,kept]

/-- A name without a mark. -/
theorem letter_names_agree : ¬MarkedName [102] ∧ NamesAgree [102] := by
  have unmarked : ¬MarkedName [102] := by
    rintro ⟨rest,same,-⟩
    exact absurd (List.cons.inj same).1 (by decide)
  exact ⟨unmarked,(names_agree_iff [102]).mpr unmarked⟩

/-- A mark before a letter is read by the host only; a mark alone is an empty name in the browser;
a mark before two dots passes the host and is rejected by the browser. -/
theorem marked_names_differ :
    (sanitizeName [0xEF,0xBB,0xBF,0x61] = .ok [bom,'a'] ∧ sanitizeFileName [0xEF,0xBB,0xBF,0x61] = .ok ['a']) ∧
      (sanitizeName [0xEF,0xBB,0xBF] = .ok [bom] ∧ sanitizeFileName [0xEF,0xBB,0xBF] = .ok []) ∧
      (sanitizeName [0xEF,0xBB,0xBF,0x2E,0x2E] = .ok [bom,'.','.'] ∧
        sanitizeFileName [0xEF,0xBB,0xBF,0x2E,0x2E] = .error ⟨"offered file name rejected: path traversal"⟩) := by
  decide +kernel

end Streamhaul
