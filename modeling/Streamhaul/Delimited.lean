import Streamhaul.Machine

/-! Self-delimiting codes: a code word tells where it ends. A stream of code words, followed by one
that is not finished, can be read in one way only, however it is cut into chunks on the way. -/
namespace Streamhaul.Delimited

variable {M A : Type}

/-- No word of a valid message is the beginning of the word of another. -/
def SelfDelimiting (valid : M → Prop) (code : M → List A) : Prop :=
  ∀ m m' rest rest', valid m → valid m' → code m ++ rest = code m' ++ rest' → m = m'

def wire (code : M → List A) (messages : List M) : List A := messages.flatMap code

/-- No word is complete in it. -/
def Unfinished (valid : M → Prop) (code : M → List A) (part : List A) : Prop :=
  ∀ m rest, valid m → part ≠ code m ++ rest

@[simp] theorem wire_nil (code : M → List A) : wire code [] = [] := rfl

@[simp] theorem wire_cons (code : M → List A) (m : M) (rest : List M) :
    wire code (m :: rest) = code m ++ wire code rest := List.flatMap_cons

@[simp] theorem wire_append (code : M → List A) (first second : List M) :
    wire code (first ++ second) = wire code first ++ wire code second := List.flatMap_append

section Code

variable {valid : M → Prop} {code : M → List A}

theorem unfinished_nil (proper : ∀ m, valid m → code m ≠ []) : Unfinished valid code [] := by
  intro m rest ok empty
  exact proper m ok (List.append_eq_nil_iff.mp empty.symm).1

theorem unfinished_of_short (delimits : SelfDelimiting valid code) {m : M} (ok : valid m) {part : List A} (missing : List A)
    (short : part ++ missing = code m) (cut : missing ≠ []) : Unfinished valid code part := by
  rintro m' rest ok' rfl
  rw [List.append_assoc] at short
  have same : m' = m := delimits m' m _ [] ok' ok (by rw [short,List.append_nil])
  subst same
  have tail : rest ++ missing = [] := by simpa using short
  exact cut (List.append_eq_nil_iff.mp tail).2

/-- What was read off a stream is a beginning of what was written. -/
theorem isPrefix_of_wire (delimits : SelfDelimiting valid code) {read written : List M} {rest part : List A}
    (ok : ∀ m ∈ read, valid m) (ok' : ∀ m ∈ written, valid m) (unfinished : Unfinished valid code part)
    (same : wire code read ++ rest = wire code written ++ part) : read <+: written := by
  induction read generalizing written with
  | nil => exact List.nil_prefix
  | cons m read ih =>
    rw [List.forall_mem_cons] at ok
    cases written with
    | nil =>
      simp only [wire_cons,wire_nil,List.nil_append,List.append_assoc] at same
      exact absurd same.symm (unfinished m _ ok.1)
    | cons m' written =>
      rw [List.forall_mem_cons] at ok'
      simp only [wire_cons,List.append_assoc] at same
      obtain rfl := delimits m m' _ _ ok.1 ok'.1 same
      rw [List.append_cancel_left_eq] at same
      exact (List.prefix_cons_inj m).mpr (ih ok.2 ok'.2 same)

/-- A stream is cut into words and an unfinished rest in one way. -/
theorem eq_of_wire (delimits : SelfDelimiting valid code) {read written : List M} {rest part : List A}
    (ok : ∀ m ∈ read, valid m) (ok' : ∀ m ∈ written, valid m) (unread : Unfinished valid code rest)
    (unfinished : Unfinished valid code part) (same : wire code read ++ rest = wire code written ++ part) :
    read = written ∧ rest = part := by
  have there := isPrefix_of_wire delimits ok ok' unfinished same
  have back := isPrefix_of_wire delimits ok' ok unread same.symm
  obtain rfl := there.eq_of_length_le back.length_le
  exact ⟨rfl,by simpa using same⟩

end Code

/-! A reader that keeps a buffer, and takes words off its front as long as one is complete. -/

section Reader

variable (next : List A → Option (M × List A))

/-- Takes words off a buffer; each is at least one symbol long, so the length of the buffer is fuel enough. -/
def drainLoop : Nat → List A → List M × List A
  | 0, buffer => ([],buffer)
  | fuel + 1, buffer =>
    match next buffer with
    | none => ([],buffer)
    | some (m,rest) => (m :: (drainLoop fuel rest).1,(drainLoop fuel rest).2)

def drain (buffer : List A) : List M × List A := drainLoop next buffer.length buffer

def feed (buffer chunk : List A) : List M × List A := drain next (buffer ++ chunk)

def received (buffer : List A) (chunks : List (List A)) : List M :=
  (Machine.trace (feed next) buffer chunks).flatMap Machine.Event.response

/-- The reader takes a word exactly when one stands in front. -/
structure Reads (valid : M → Prop) (code : M → List A) : Prop where
  exactly : ∀ buffer m rest, next buffer = some (m,rest) ↔ valid m ∧ buffer = code m ++ rest
  proper : ∀ m, valid m → code m ≠ []

variable {next} {valid : M → Prop} {code : M → List A}

theorem Reads.selfDelimiting (reads : Reads next valid code) : SelfDelimiting valid code := by
  intro m m' rest rest' ok ok' same
  have first := (reads.exactly _ m rest).mpr ⟨ok,rfl⟩
  have second := (reads.exactly _ m' rest').mpr ⟨ok',same⟩
  rw [first] at second
  exact congrArg Prod.fst (Option.some.inj second)

theorem Reads.unfinished_iff (reads : Reads next valid code) (buffer : List A) :
    Unfinished valid code buffer ↔ next buffer = none := by
  constructor
  · intro unfinished
    rw [Option.eq_none_iff_forall_ne_some]
    rintro ⟨m,rest⟩ found
    obtain ⟨ok,split⟩ := (reads.exactly _ _ _).mp found
    exact unfinished m rest ok split
  · intro none_found m rest ok split
    have found := (reads.exactly _ m rest).mpr ⟨ok,split⟩
    rw [none_found] at found
    cases found

/-- What a drained buffer was: words, and a rest in which none is complete. -/
structure Drained (valid : M → Prop) (code : M → List A) (buffer : List A) (out : List M × List A) : Prop where
  split : wire code out.1 ++ out.2 = buffer
  ok : ∀ m ∈ out.1, valid m
  unfinished : Unfinished valid code out.2

theorem Reads.drainLoop_spec (reads : Reads next valid code) (fuel : Nat) (buffer : List A)
    (enough : buffer.length ≤ fuel) : Drained valid code buffer (drainLoop next fuel buffer) := by
  induction fuel generalizing buffer with
  | zero =>
    obtain rfl := List.length_eq_zero_iff.mp (Nat.le_zero.mp enough)
    exact ⟨rfl,by simp [drainLoop],unfinished_nil reads.proper⟩
  | succ fuel ih =>
    rw [drainLoop]
    cases found : next buffer with
    | none => exact ⟨rfl,by simp,(reads.unfinished_iff buffer).mpr found⟩
    | some word =>
      obtain ⟨m,rest⟩ := word
      obtain ⟨ok,rfl⟩ := (reads.exactly _ _ _).mp found
      have shorter : rest.length ≤ fuel := by
        have taken := List.length_pos_of_ne_nil (reads.proper m ok)
        rw [List.length_append] at enough
        omega
      have later := ih rest shorter
      refine ⟨?_,List.forall_mem_cons.mpr ⟨ok,later.ok⟩,later.unfinished⟩
      rw [wire_cons,List.append_assoc,later.split]

theorem Reads.feed_spec (reads : Reads next valid code) (buffer chunk : List A) :
    Drained valid code (buffer ++ chunk) (feed next buffer chunk) :=
  reads.drainLoop_spec _ _ le_rfl

/-- Over any chunks, what came out and what is left make up what went in. -/
theorem Reads.received_spec (reads : Reads next valid code) (buffer : List A) (chunks : List (List A))
    (unfinished : Unfinished valid code buffer) :
    Drained valid code (buffer ++ chunks.flatten)
      (received next buffer chunks,Machine.final (feed next) buffer chunks) := by
  induction chunks generalizing buffer with
  | nil => exact ⟨by simp [received,Machine.trace,Machine.final],by simp [received,Machine.trace],unfinished⟩
  | cons chunk chunks ih =>
    have now := reads.feed_spec buffer chunk
    have later := ih _ now.unfinished
    have out : received next buffer (chunk :: chunks) =
        (feed next buffer chunk).1 ++ received next (feed next buffer chunk).2 chunks := by
      simp [received,Machine.trace,Machine.fire]
    refine ⟨?_,?_,later.unfinished⟩
    · rw [out,wire_append,List.append_assoc,Machine.final,later.split,← List.append_assoc,now.split]
      simp
    · rw [out,List.forall_mem_append]
      exact ⟨now.ok,later.ok⟩

/-- The messages come out of the chunks of their stream, and what follows them unfinished stays in the
buffer. -/
theorem Reads.received_wire (reads : Reads next valid code) {messages : List M} {part : List A}
    {chunks : List (List A)} (ok : ∀ m ∈ messages, valid m) (unfinished : Unfinished valid code part)
    (stream : chunks.flatten = wire code messages ++ part) :
    received next [] chunks = messages ∧ Machine.final (feed next) [] chunks = part := by
  have spec := reads.received_spec [] chunks (unfinished_nil reads.proper)
  refine eq_of_wire reads.selfDelimiting spec.ok ok spec.unfinished unfinished ?_
  rw [spec.split,List.nil_append,stream]

end Reader

end Streamhaul.Delimited
