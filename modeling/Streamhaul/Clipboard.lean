import Mathlib.Data.List.Chain
import Streamhaul.ShpHeaders
import Streamhaul.Text

/-! Clipboard updates and what a host pastes of them: the wire form, and the sanitizer that untrusted
text goes through before it reaches the clipboard of the operating system. -/
namespace Streamhaul

def maxClipboardBytes : Nat := 256 * 1024

inductive ClipboardFormat where
  | text
  deriving DecidableEq

def formatText : UInt8 := 0

def formatToU8 : ClipboardFormat → UInt8
  | .text => formatText

def formatFromU8 (b : UInt8) : Except ProtocolError ClipboardFormat :=
  if b = formatText then .ok .text else .error (.invalidClipboardFormat b)

structure ClipboardUpdate where
  format : ClipboardFormat
  content : Bytes
  deriving DecidableEq

namespace ClipboardUpdate

def text (s : Text) : Except ProtocolError ClipboardUpdate :=
  if s.len > maxClipboardBytes then .error (.clipboardTooLarge s.len) else .ok ⟨.text,s.asBytes⟩

def asText (update : ClipboardUpdate) : Option Text :=
  match update.format with
  | .text => Text.fromUtf8 update.content

def encode (update : ClipboardUpdate) : Bytes := formatToU8 update.format :: update.content

def decode : Bytes → Except ProtocolError ClipboardUpdate
  | [] => .error (.truncated 1 0)
  | fmt :: content =>
    match formatFromU8 fmt with
    | .error e => .error e
    | .ok format =>
      if content.length > maxClipboardBytes then .error (.clipboardTooLarge content.length)
      else
        match format with
        | .text => if (Text.fromUtf8 content).isNone then .error .invalidClipboardText else .ok ⟨format,content⟩

end ClipboardUpdate

/-- The scalars that must not appear in pasted text. -/
def isForbiddenInPasteOutput (c : Char) : Bool :=
  let u := c.toNat
  u ≤ 0x08 || (0x0B ≤ u && u ≤ 0x1F) || u == 0x7F || (0x80 ≤ u && u ≤ 0x9F) || u == 0xAD || u == 0x061C || u == 0x180E ||
    u == 0x2028 || u == 0x2029 || (0x200B ≤ u && u ≤ 0x200F) || (0x202A ≤ u && u ≤ 0x202E) ||
    (0x2060 ≤ u && u ≤ 0x2064) || (0x2066 ≤ u && u ≤ 0x2069) || (0x206A ≤ u && u ≤ 0x206F) || u == 0xFEFF ||
    (0xFFF9 ≤ u && u ≤ 0xFFFB) || (0xFDD0 ≤ u && u ≤ 0xFDEF) || (0x1D173 ≤ u && u ≤ 0x1D17A) ||
    (0xE0000 ≤ u && u ≤ 0xE007F) || u &&& 0xFFFE == 0xFFFE

def lineSeparator : Char := Char.ofNat 0x2028
def paragraphSeparator : Char := Char.ofNat 0x2029

def sanitizeClipboardText : Text → Text
  | [] => []
  | c :: rest =>
    if c = '\r' then
      -- a line feed right behind the carriage return is taken with it
      '\n' :: match rest with
        | [] => []
        | next :: after => if next = '\n' then sanitizeClipboardText after else sanitizeClipboardText (next :: after)
    else if c = lineSeparator ∨ c = paragraphSeparator then '\n' :: sanitizeClipboardText rest
    else if isForbiddenInPasteOutput c then sanitizeClipboardText rest
    else c :: sanitizeClipboardText rest

def sanitizeForPaste (input : Text) : Option Text :=
  let out := sanitizeClipboardText input
  if out.isEmpty then none else some out

def decodeClipboardPaste (bytes : Bytes) : Option Text :=
  match ClipboardUpdate.decode bytes with
  | .error _ => none
  | .ok update =>
    match update.asText with
    | none => none
    | some text => sanitizeForPaste text

/-- How the operating system takes a text; a panic ends the clipboard task. -/
inductive SetText where
  | done
  | failed
  | panicked

/-- The texts that a session's clipboard task hands to the operating system, from the messages received
until the channel ends, each with the outcome of the write should there be one. -/
def runClipboard : List (Bytes × SetText) → List Text
  | [] => []
  | (bytes,outcome) :: rest =>
    match decodeClipboardPaste bytes with
    | none => runClipboard rest
    | some text =>
      match outcome with
      | .panicked => [text]
      | .done | .failed => text :: runClipboard rest

/-- What is at one place of a text: the two scalars of a line end, or any scalar. -/
inductive Piece where
  | crlf
  | scalar (c : Char)

namespace Piece

def text : Piece → Text
  | crlf => ['\r','\n']
  | scalar c => [c]

/-- What is pasted for a piece: a line feed for every kind of line end, nothing for the other forbidden
scalars, and every other scalar as it is. -/
def pasted : Piece → Text
  | crlf => ['\n']
  | scalar c =>
    if c = '\r' ∨ c = lineSeparator ∨ c = paragraphSeparator then ['\n']
    else if isForbiddenInPasteOutput c then []
    else [c]

/-- Every carriage return with a line feed right behind it is read as a pair. -/
def Paired (pieces : List Piece) : Prop :=
  pieces.IsChain fun first second => ¬(first = scalar '\r' ∧ second = scalar '\n')

def read : Text → List Piece
  | [] => []
  | c :: rest =>
    if c = '\r' then
      match rest with
      | [] => [scalar c]
      | next :: after => if next = '\n' then crlf :: read after else scalar c :: read (next :: after)
    else scalar c :: read rest

variable {c : Char}

theorem read_cons (plain : c ≠ '\r') (rest : Text) : read (c :: rest) = scalar c :: read rest := by
  cases rest <;> simp [read,plain]

theorem text_read (s : Text) : (read s).flatMap text = s := by
  fun_induction read s <;> simp_all [text]

theorem head_read {s : Text} (first : (read s).head? = some (scalar c)) : s.head? = some c := by
  obtain ⟨rest,split⟩ := List.head?_eq_some_iff.mp first
  have whole := text_read s
  rw [split] at whole
  rw [← whole]
  rfl

theorem paired_read (s : Text) : Paired (read s) := by
  fun_induction read s with
  | case1 => exact .nil
  | case2 => exact .singleton _
  | case3 after ih =>
    refine List.isChain_cons.mpr ⟨fun second _ pair => ?_,ih⟩
    exact absurd pair.1 (by simp)
  | case4 next after other ih =>
    refine List.isChain_cons.mpr ⟨fun second found pair => other ?_,ih⟩
    rw [pair.2] at found
    exact Option.some.inj (head_read found)
  | case5 c rest plain ih =>
    refine List.isChain_cons.mpr ⟨fun second _ pair => plain ?_,ih⟩
    exact Piece.scalar.inj pair.1

/-- A text is read into pieces in one way. -/
theorem read_text {pieces : List Piece} (paired : Paired pieces) : read (pieces.flatMap text) = pieces := by
  induction pieces with
  | nil => rfl
  | cons piece rest ih =>
    obtain ⟨apart,tail⟩ := List.isChain_cons.mp paired
    have later := ih tail
    cases piece with
    | crlf => simpa [text,read] using later
    | scalar c =>
      by_cases cr : c = '\r'
      · subst cr
        cases rest with
        | nil => rfl
        | cons next after =>
          cases next with
          | crlf => simpa [text,read] using later
          | scalar d =>
            have other : d ≠ '\n' := by
              rintro rfl
              exact apart _ rfl ⟨rfl,rfl⟩
            simpa [text,read,other] using later
      · simpa [text,read_cons cr] using later

theorem sanitize_cons (plain : c ≠ '\r') (rest : Text) :
    sanitizeClipboardText (c :: rest) = (scalar c).pasted ++ sanitizeClipboardText rest := by
  have step : sanitizeClipboardText (c :: rest) =
      if c = lineSeparator ∨ c = paragraphSeparator then '\n' :: sanitizeClipboardText rest
      else if isForbiddenInPasteOutput c then sanitizeClipboardText rest
      else c :: sanitizeClipboardText rest := by
    cases rest <;> simp [sanitizeClipboardText,plain]
  rw [step]
  simp only [pasted,plain,false_or]
  split_ifs <;> rfl

/-- The sanitizer works piece by piece. -/
theorem sanitize_eq (s : Text) : sanitizeClipboardText s = (read s).flatMap pasted := by
  fun_induction read s with
  | case1 => rfl
  | case2 => rfl
  | case3 after ih => simp [sanitizeClipboardText,pasted,ih]
  | case4 next after other ih => simp [sanitizeClipboardText,pasted,other,ih]
  | case5 c rest plain ih => rw [sanitize_cons plain,ih,List.flatMap_cons]

theorem allowed_of_mem_pasted {piece : Piece} (member : c ∈ piece.pasted) : isForbiddenInPasteOutput c = false := by
  cases piece with
  | crlf =>
    obtain rfl := List.mem_singleton.mp member
    rfl
  | scalar d =>
    simp only [pasted] at member
    split_ifs at member with newline forbidden
    · obtain rfl := List.mem_singleton.mp member
      rfl
    · cases member
    · obtain rfl := List.mem_singleton.mp member
      exact Bool.eq_false_iff.mpr forbidden

theorem len_pasted_le (piece : Piece) : piece.pasted.len ≤ piece.text.len := by
  cases piece with
  | crlf => decide
  | scalar c =>
    simp only [pasted]
    split_ifs
    · exact Char.utf8Size_pos c
    · exact Nat.zero_le _
    · exact le_rfl

theorem pasted_of_allowed (allowed : isForbiddenInPasteOutput c = false) : (scalar c).pasted = [c] := by
  have kept : ¬(c = '\r' ∨ c = lineSeparator ∨ c = paragraphSeparator) := by
    rintro (rfl | rfl | rfl) <;> exact absurd allowed (by decide)
  simp [pasted,kept,allowed]

end Piece

variable {s : Text}

theorem allowed_of_mem_sanitized {c : Char} (member : c ∈ sanitizeClipboardText s) :
    isForbiddenInPasteOutput c = false := by
  rw [Piece.sanitize_eq] at member
  obtain ⟨piece,-,found⟩ := List.mem_flatMap.mp member
  exact Piece.allowed_of_mem_pasted found

theorem len_sanitized_le (s : Text) : (sanitizeClipboardText s).len ≤ s.len := by
  have pieces : ∀ pieces : List Piece, Text.len (pieces.flatMap Piece.pasted) ≤ Text.len (pieces.flatMap Piece.text) := by
    intro pieces
    induction pieces with
    | nil => exact le_rfl
    | cons piece rest ih =>
      rw [List.flatMap_cons,List.flatMap_cons,Text.len_append,Text.len_append]
      exact Nat.add_le_add piece.len_pasted_le ih
  have whole := pieces (Piece.read s)
  rwa [← Piece.sanitize_eq,Piece.text_read] at whole

theorem sanitized_of_allowed (allowed : ∀ c ∈ s, isForbiddenInPasteOutput c = false) : sanitizeClipboardText s = s := by
  induction s with
  | nil => rfl
  | cons c rest ih =>
    obtain ⟨first,later⟩ := List.forall_mem_cons.mp allowed
    have plain : c ≠ '\r' := by
      rintro rfl
      exact absurd first (by decide)
    rw [Piece.sanitize_cons plain,Piece.pasted_of_allowed first,ih later]
    rfl

/-- Text that may be handed to the clipboard of the operating system. -/
structure Pasteable (s : Text) : Prop where
  nonempty : s ≠ []
  bounded : s.len ≤ maxClipboardBytes
  allowed : ∀ c ∈ s, isForbiddenInPasteOutput c = false

theorem ClipboardUpdate.decode_ok_iff {bytes : Bytes} {update : ClipboardUpdate} : decode bytes = .ok update ↔
    ∃ s : Text, s.len ≤ maxClipboardBytes ∧ update = ⟨.text,s.asBytes⟩ ∧ bytes = update.encode := by
  constructor
  · intro decoded
    cases bytes with
    | nil => cases decoded
    | cons fmt content =>
      by_cases known : fmt = formatText
      · subst known
        simp only [decode,formatFromU8,if_true] at decoded
        split_ifs at decoded with large invalid
        obtain ⟨s,valid⟩ := Option.ne_none_iff_exists'.mp (mt Option.isNone_iff_eq_none.mpr invalid)
        have same := Text.asBytes_of_fromUtf8 valid
        refine ⟨s,?_,?_,?_⟩
        · rw [← Text.length_asBytes,same]
          exact Nat.le_of_not_lt large
        · rw [same]
          exact (Except.ok.inj decoded).symm
        · rw [← Except.ok.inj decoded]
          rfl
      · simp [decode,formatFromU8,known] at decoded
  · rintro ⟨s,bounded,rfl,rfl⟩
    have fits : ¬s.asBytes.length > maxClipboardBytes := by
      rw [Text.length_asBytes]
      exact Nat.not_lt.mpr bounded
    simp [decode,encode,formatFromU8,formatToU8,fits]

theorem decodeClipboardPaste_text {update : ClipboardUpdate} (built : ClipboardUpdate.text s = .ok update) :
    decodeClipboardPaste update.encode = sanitizeForPaste s := by
  simp only [ClipboardUpdate.text] at built
  split_ifs at built with large
  have decoded := ClipboardUpdate.decode_ok_iff.mpr ⟨s,Nat.le_of_not_lt large,(Except.ok.inj built).symm,rfl⟩
  rw [decodeClipboardPaste,decoded,← Except.ok.inj built]
  simp [ClipboardUpdate.asText]

theorem pasteable_of_decoded {bytes : Bytes} (decoded : decodeClipboardPaste bytes = some s) : Pasteable s := by
  simp only [decodeClipboardPaste] at decoded
  cases parsed : ClipboardUpdate.decode bytes with
  | error e => simp [parsed] at decoded
  | ok update =>
    obtain ⟨received,bounded,rfl,-⟩ := ClipboardUpdate.decode_ok_iff.mp parsed
    have sanitized : sanitizeForPaste received = some s := by
      simpa [parsed,ClipboardUpdate.asText] using decoded
    simp only [sanitizeForPaste] at sanitized
    split_ifs at sanitized with blank
    obtain rfl := Option.some.inj sanitized
    refine ⟨fun none => blank ?_,(len_sanitized_le received).trans bounded,fun c => allowed_of_mem_sanitized⟩
    rw [none]
    rfl

/-- A session writes the texts of its messages in the order of arrival, up to a write that panics. -/
theorem runClipboard_order (messages : List (Bytes × SetText)) :
    runClipboard messages <+: messages.filterMap (fun message => decodeClipboardPaste message.1) ∧
    ((∀ message ∈ messages, message.2 ≠ .panicked) →
      runClipboard messages = messages.filterMap (fun message => decodeClipboardPaste message.1)) := by
  induction messages with
  | nil => exact ⟨List.prefix_rfl,fun _ => rfl⟩
  | cons message rest ih =>
    obtain ⟨bytes,outcome⟩ := message
    obtain ⟨front,whole⟩ := ih
    simp only [runClipboard,List.filterMap_cons,List.forall_mem_cons]
    cases decodeClipboardPaste bytes with
    | none => exact ⟨front,fun quiet => whole quiet.2⟩
    | some s =>
      have kept := List.prefix_cons_inj s |>.mpr front
      cases outcome with
      | panicked => exact ⟨⟨_,rfl⟩,fun quiet => absurd rfl quiet.1⟩
      | done => exact ⟨kept,fun quiet => congrArg (s :: ·) (whole quiet.2)⟩
      | failed => exact ⟨kept,fun quiet => congrArg (s :: ·) (whole quiet.2)⟩

/-- Whatever the peer sends, every text a session writes to the clipboard is pasteable. -/
theorem pasteable_of_mem_runClipboard {messages : List (Bytes × SetText)} (written : s ∈ runClipboard messages) :
    Pasteable s := by
  obtain ⟨message,-,decoded⟩ := List.mem_filterMap.mp ((runClipboard_order messages).1.subset written)
  exact pasteable_of_decoded decoded

/-- What is pasted is never empty, fits the wire bound and holds no forbidden scalar; the sanitizer keeps
exactly what the pieces of a text say, changes nothing the second time and never adds bytes. -/
theorem clipboard_paste_hardened :
    (∀ bytes, decodeClipboardPaste bytes = none ∨ ∃ s, decodeClipboardPaste bytes = some s ∧ Pasteable s) ∧
    (∀ s, ∃ pieces, (∀ other, Piece.Paired other ∧ other.flatMap Piece.text = s ↔ other = pieces) ∧
      sanitizeClipboardText s = pieces.flatMap Piece.pasted) ∧
    ∀ s, sanitizeClipboardText (sanitizeClipboardText s) = sanitizeClipboardText s ∧
      (sanitizeClipboardText s).len ≤ s.len := by
  refine ⟨fun bytes => ?_,fun s => ⟨Piece.read s,fun other => ⟨?_,?_⟩,Piece.sanitize_eq s⟩,fun s => ⟨?_,len_sanitized_le s⟩⟩
  · cases decoded : decodeClipboardPaste bytes with
    | none => exact Or.inl rfl
    | some s => exact Or.inr ⟨s,rfl,pasteable_of_decoded decoded⟩
  · rintro ⟨paired,rfl⟩
    exact (Piece.read_text paired).symm
  · rintro rfl
    exact ⟨Piece.paired_read s,Piece.text_read s⟩
  · exact sanitized_of_allowed fun c => allowed_of_mem_sanitized

example : sanitizeClipboardText "ls\r\n\x1b[31mred\r".toList = "ls\n[31mred\n".toList := by decide +kernel

end Streamhaul
