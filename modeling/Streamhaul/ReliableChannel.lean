import Streamhaul.ByteStream
import Streamhaul.ChannelFrame
import Streamhaul.Delimited

/-! One direction of a reliable channel, over a stream that begins with the header of the channel and goes on with
messages behind their lengths. The polls of the two ends and the events of the network interleave in any order, and
a write or a read may be suspended, or its future dropped, after any byte. -/
namespace Streamhaul.Quic

open ByteStream

def maxFrameLen : Nat := 16 * 1024 * 1024

inductive StreamError where
  | streamClosed
  | messageTooLarge (len : Nat)
  | io
  | streamRead
  | invalidChannelHeader (reason : String)
  deriving DecidableEq

inductive Reliability where
  | unreliable | reliable
  deriving DecidableEq

structure ChannelSpec where
  channel : ChannelId
  reliability : Reliability
  priority : UInt8
  deriving DecidableEq

namespace ChannelSpec

def encodeHeader (spec : ChannelSpec) : Bytes := [spec.channel.toU8,spec.priority]

def decodeHeader (bytes : Bytes) : Except StreamError ChannelSpec :=
  match ChannelId.tryFrom (bytes.getD 0 0) with
  | none => .error (.invalidChannelHeader "unknown channel discriminant byte")
  | some channel => .ok ⟨channel,.reliable,bytes.getD 1 0⟩

/-- The header leaves out the reliability: what is accepted from a stream is reliable. -/
theorem decodeHeader_encodeHeader (spec : ChannelSpec) :
    decodeHeader spec.encodeHeader = .ok { spec with reliability := .reliable } := by
  simp [decodeHeader,encodeHeader]

end ChannelSpec

/-- Where the receiving side is: in `accept_channel`, in front of a message or in the length of one, or
in a payload. Without a channel nothing is read. -/
inductive RecvPhase where
  | opening (got : Bytes)
  | header (got : Bytes)
  | payload (len : Nat) (got : Bytes)
  | refused
  deriving DecidableEq

inductive Reply where
  | opened
  | sent (msg : Bytes)
  | rejected (e : StreamError)
  | interrupted
  | accepted (result : Except StreamError ChannelSpec)
  | received (result : Except StreamError (Option Bytes))
  | pending
  | idle
  deriving DecidableEq

section Model

variable {σ ν : Type} (q : ByteStream σ ν)

def pollAccept (got : Bytes) (s : σ) : Reply × RecvPhase × σ :=
  match q.readExact 2 got s with
  | (.ready header,s) =>
    match ChannelSpec.decodeHeader header with
    | .ok spec => (.accepted (.ok spec),.header [],s)
    | .error e => (.accepted (.error e),.refused,s)
  | (.pending got,s) => (.pending,.opening got,s)
  | (.finishedEarly _,s) => (.accepted (.error (.invalidChannelHeader "stream closed before header")),.refused,s)
  | (.failed,s) => (.accepted (.error .streamRead),.refused,s)

def pollPayload (len : Nat) (got : Bytes) (s : σ) : Reply × RecvPhase × σ :=
  match q.readExact len got s with
  | (.ready payload,s) => (.received (.ok (some payload)),.header [],s)
  | (.pending got,s) => (.pending,.payload len got,s)
  | (.finishedEarly _,s) => (.received (.error .streamClosed),.header [],s)
  | (.failed,s) => (.received (.error .streamRead),.header [],s)

def pollHeader (got : Bytes) (s : σ) : Reply × RecvPhase × σ :=
  match q.readExact 4 got s with
  | (.ready lenBuf,s) =>
    if maxFrameLen < fromBeBytes lenBuf then
      (.received (.error (.messageTooLarge (fromBeBytes lenBuf))),.header [],s)
    else pollPayload q (fromBeBytes lenBuf) [] s
  | (.pending got,s) => (.pending,.header got,s)
  -- a stream that ends on a message boundary is a clean end
  | (.finishedEarly 0,s) => (.received (.ok none),.header [],s)
  | (.finishedEarly _,s) => (.received (.error .streamClosed),.header [],s)
  | (.failed,s) => (.received (.error .streamRead),.header [],s)

/-- The future of `accept_channel`, then that of one `recv` after the other. -/
def poll (phase : RecvPhase) (s : σ) : Reply × RecvPhase × σ :=
  match phase with
  | .opening got => pollAccept q got s
  | .header got => pollHeader q got s
  | .payload len got => pollPayload q len got s
  | .refused => (.idle,.refused,s)

/-- What a dropped future had read is gone. -/
def dropped : RecvPhase → RecvPhase
  | .opening _ => .refused
  | .refused => .refused
  | .header _ => .header []
  | .payload _ _ => .header []

/-- The bytes of a message, when `send` lets it through. -/
def encodeFrame (msg : Bytes) : Except StreamError Bytes :=
  if u32Max < msg.length then .error (.messageTooLarge u32Max)
  else if maxFrameLen < msg.length then .error (.messageTooLarge msg.length)
  else .ok (toBeBytes 4 msg.length ++ msg)

/-- Where the sending side is: in `open_channel`, between messages, or in a `send`. A `send` that failed or was
dropped may have left part of its frame. -/
inductive Sending where
  | opening (left : Bytes)
  | ready
  | writing (msg left : Bytes)
  | cut
  | closed
  deriving DecidableEq

/-- The future of `open_channel` writes the header of the channel. -/
def pollOpen (left : Bytes) (s : σ) : Reply × Sending × σ :=
  match q.writeAll left s with
  | (.ready,s) => (.opened,.ready,s)
  | (.pending left,s) => (.pending,.opening left,s)
  | (.failed,s) => (.rejected .io,.closed,q.close s)

def pollWrite (msg left : Bytes) (s : σ) : Reply × Sending × σ :=
  match q.writeAll left s with
  | (.ready,s) => (.sent msg,.ready,s)
  | (.pending left,s) => (.pending,.writing msg left,s)
  | (.failed,s) => (.rejected .io,.cut,s)

def send (msg : Bytes) (sending : Sending) (s : σ) : Reply × Sending × σ :=
  match encodeFrame msg with
  | .error e => (.rejected e,sending,s)
  | .ok buf => pollWrite q msg buf s

structure Link (σ : Type) where
  sending : Sending
  stream : σ
  phase : RecvPhase

inductive Call (ν : Type) where
  | send (msg : Bytes)
  | pollSend
  | dropSend
  | close
  | network (event : ν)
  | poll
  | drop
  deriving DecidableEq

namespace Link

def opened (spec : ChannelSpec) : Link σ := ⟨.opening spec.encodeHeader,q.opened,.opening []⟩

/-- The calls of the sending side. A future has the channel to itself until it is done or dropped. -/
def write (sending : Sending) (s : σ) (call : Call ν) : Reply × Sending × σ :=
  match call,sending with
  | .send msg,.ready => Quic.send q msg .ready s
  | .send msg,.cut => Quic.send q msg .cut s
  | .pollSend,.opening left => pollOpen q left s
  | .pollSend,.writing msg left => pollWrite q msg left s
  | .dropSend,.opening _ => (.interrupted,.closed,q.close s)
  | .dropSend,.writing _ _ => (.interrupted,.cut,s)
  | .close,.ready => (.idle,.closed,q.close s)
  | .close,.cut => (.idle,.closed,q.close s)
  | _,_ => (.idle,sending,s)

def step (link : Link σ) (call : Call ν) : Reply × Link σ :=
  match call with
  | .network event => (.idle,{ link with stream := q.network event link.stream })
  | .poll =>
    let (reply,phase,stream) := Quic.poll q link.phase link.stream
    (reply,{ link with phase := phase, stream := stream })
  | .drop => (.idle,{ link with phase := dropped link.phase })
  | call =>
    let (reply,sending,stream) := write q link.sending link.stream call
    (reply,{ link with sending := sending, stream := stream })

end Link

end Model

/-! Messages as code words. A length above the limit is a word of its own, since the next `recv` reads on
behind it. -/

inductive Item where
  | message (payload : Bytes)
  | oversized (len : Nat)
  deriving DecidableEq

namespace Item

def Valid : Item → Prop
  | .message payload => payload.length ≤ maxFrameLen
  | .oversized len => maxFrameLen < len ∧ len < 256 ^ 4

def code : Item → Bytes
  | .message payload => toBeBytes 4 payload.length ++ payload
  | .oversized len => toBeBytes 4 len

def payload? : Item → Option Bytes
  | .message payload => some payload
  | .oversized _ => none

theorem maxFrameLen_lt : maxFrameLen < 256 ^ 4 := by decide

/-- Words that begin alike state the same length. -/
theorem lengths_eq {a b : Nat} (ha : a < 256 ^ 4) (hb : b < 256 ^ 4) {rest rest' : Bytes}
    (same : toBeBytes 4 a ++ rest = toBeBytes 4 b ++ rest') : a = b ∧ rest = rest' := by
  obtain ⟨first,second⟩ := List.append_inj same (by simp)
  exact ⟨toBeBytes_injective ha hb first,second⟩

theorem selfDelimiting : Delimited.SelfDelimiting Valid code := by
  have bound := maxFrameLen_lt
  intro a b rest rest' ha hb same
  cases a with
  | message m =>
    cases b with
    | message m' =>
      simp only [code,List.append_assoc] at same
      obtain ⟨size,same⟩ := lengths_eq (ha.trans_lt bound) (hb.trans_lt bound) same
      rw [(List.append_inj same size).1]
    | oversized len =>
      simp only [code,List.append_assoc] at same
      obtain ⟨size,_⟩ := lengths_eq (ha.trans_lt bound) hb.2 same
      simp only [Valid] at ha hb
      omega
  | oversized len =>
    cases b with
    | message m' =>
      simp only [code,List.append_assoc] at same
      obtain ⟨size,_⟩ := lengths_eq ha.2 (hb.trans_lt bound) same
      simp only [Valid] at ha hb
      omega
    | oversized len' =>
      rw [(lengths_eq ha.2 hb.2 same).1]

theorem code_ne_nil (i : Item) : i.code ≠ [] := by
  intro empty
  have size : 4 ≤ i.code.length := by cases i <;> simp [code]
  simp [empty] at size

end Item

namespace RecvPhase

/-- What has been read of a word that is not complete. -/
def held : RecvPhase → Bytes
  | .opening got => got
  | .header got => got
  | .payload len got => toBeBytes 4 len ++ got
  | .refused => []

/-- A suspended read lacks something, and a payload is never longer than the limit. -/
def Ok : RecvPhase → Prop
  | .opening got => got.length < 2
  | .header got => got.length < 4
  | .payload len got => got.length < len ∧ len ≤ maxFrameLen
  | .refused => True

/-- Between messages or inside one. -/
def InChannel : RecvPhase → Prop
  | .header _ => True
  | .payload _ _ => True
  | _ => False

/-- Nothing is lost when the future is dropped here. -/
def AtRest : RecvPhase → Prop
  | .header got => got = []
  | .payload _ _ => False
  | _ => True

end RecvPhase

open Delimited

/-- What a payload still lacks. -/
theorem unfinished_short {got : Bytes} {len : Nat} (short : got.length < len) (bound : len ≤ maxFrameLen) :
    Unfinished Item.Valid Item.code (toBeBytes 4 len ++ got) := by
  refine unfinished_of_short Item.selfDelimiting (m := .message (got ++ List.replicate (len - got.length) 0)) ?_
    (List.replicate (len - got.length) 0) ?_ ?_
  · simp only [Item.Valid,List.length_append,List.length_replicate]
    omega
  · have size : got.length + (len - got.length) = len := by omega
    simp [Item.code,size]
  · intro none_left
    have size := congrArg List.length none_left
    simp only [List.length_replicate,List.length_nil] at size
    omega

theorem unfinished_header {got : Bytes} (short : got.length < 4) : Unfinished Item.Valid Item.code got := by
  rintro i rest _ rfl
  rw [List.length_append] at short
  have size : 4 ≤ i.code.length := by cases i <;> simp [Item.code]
  omega

section Spec

variable {σ ν : Type} {v : View σ} {q : ByteStream σ ν}

section Relation

variable (v : View σ) (s s' : σ)

/-- What a poll does, from a phase and the bytes that it takes to a reply and a phase. -/
inductive Polled : RecvPhase → Bytes → Reply → RecvPhase → Prop
  | accepted {got taken spec} (size : (got ++ taken).length = 2)
      (decoded : ChannelSpec.decodeHeader (got ++ taken) = .ok spec) :
      Polled (.opening got) taken (.accepted (.ok spec)) (.header [])
  | undecoded {got taken e} (size : (got ++ taken).length = 2)
      (decoded : ChannelSpec.decodeHeader (got ++ taken) = .error e) :
      Polled (.opening got) taken (.accepted (.error e)) .refused
  | unopened {got taken} (short : (got ++ taken).length < 2) (finished : v.finished s)
      (all : v.read s' = v.written s') : Polled (.opening got) taken
        (.accepted (.error (.invalidChannelHeader "stream closed before header"))) .refused
  | refused {got taken} (reset : v.reset s') : Polled (.opening got) taken (.accepted (.error .streamRead)) .refused
  | opening {got taken} (short : (got ++ taken).length < 2) :
      Polled (.opening got) taken .pending (.opening (got ++ taken))
  | message {phase taken m} (inside : phase.InChannel) (bound : m.length ≤ maxFrameLen)
      (read : phase.held ++ taken = (Item.message m).code) :
      Polled phase taken (.received (.ok (some m))) (.header [])
  | oversized {phase taken len} (inside : phase.InChannel) (valid : (Item.oversized len).Valid)
      (read : phase.held ++ taken = (Item.oversized len).code) :
      Polled phase taken (.received (.error (.messageTooLarge len))) (.header [])
  | pending {phase phase' taken} (inside : phase.InChannel) (ok : phase'.Ok) (inside' : phase'.InChannel)
      (read : phase.held ++ taken = phase'.held) : Polled phase taken .pending phase'
  | eof (finished : v.finished s) (alive : ¬v.failed s) (all : v.read s' = v.written s') :
      Polled (.header []) [] (.received (.ok none)) (.header [])
  | closed {phase taken} (inside : phase.InChannel) (some_left : phase.held ++ taken ≠ [])
      (unfinished : Unfinished Item.Valid Item.code (phase.held ++ taken)) (finished : v.finished s)
      (all : v.read s' = v.written s') : Polled phase taken (.received (.error .streamClosed)) (.header [])
  | failed {phase taken} (inside : phase.InChannel) (reset : v.reset s') (fails : v.failed s') :
      Polled phase taken (.received (.error .streamRead)) (.header [])
  | idle : Polled .refused [] .idle .refused

/-- What a poll gives, and the bytes it took. -/
def Gives (phase : RecvPhase) (out : Reply × RecvPhase × σ) : Prop :=
  ∃ taken, Took v s taken out.2.2 ∧ Polled v s out.2.2 phase taken out.1 out.2.1

end Relation

theorem pollAccept_spec (lawful : Lawful v q) {got : Bytes} (s : σ) (room : got.length < 2) :
    Gives v s (.opening got) (pollAccept q got s) := by
  obtain ⟨taken,took,reads⟩ := lawful.reads 2 got s room.le
  unfold pollAccept
  generalize q.readExact 2 got s = out at took reads
  obtain ⟨outcome,s'⟩ := out
  refine ⟨taken,?_⟩
  cases reads with
  | ready size =>
    simp only
    cases decoded : ChannelSpec.decodeHeader (got ++ taken) with
    | ok spec => exact ⟨took,.accepted size decoded⟩
    | error e => exact ⟨took,.undecoded size decoded⟩
  | pending short => exact ⟨took,.opening short⟩
  | finishedEarly short finished alive all => exact ⟨took,.unopened short finished all⟩
  | failed reset fails => exact ⟨took,.refused reset⟩

theorem pollPayload_spec (lawful : Lawful v q) {len : Nat} {got before : Bytes} {phase : RecvPhase} {s₀ s : σ}
    (inside : phase.InChannel) (room : got.length ≤ len) (bound : len ≤ maxFrameLen) (earlier : Took v s₀ before s)
    (reached : phase.held ++ before = toBeBytes 4 len ++ got) : Gives v s₀ phase (pollPayload q len got s) := by
  obtain ⟨taken,took,reads⟩ := lawful.reads len got s room
  unfold pollPayload
  generalize q.readExact len got s = out at took reads
  obtain ⟨outcome,s'⟩ := out
  have took := earlier.trans took
  have read : phase.held ++ (before ++ taken) = toBeBytes 4 len ++ (got ++ taken) := by
    rw [← List.append_assoc,reached,List.append_assoc]
  refine ⟨before ++ taken,?_⟩
  cases reads with
  | ready size =>
    refine ⟨took,.message inside (size ▸ bound) ?_⟩
    rw [read,Item.code,size]
  | pending short => exact ⟨took,.pending inside ⟨short,bound⟩ trivial read⟩
  | finishedEarly short finished alive all =>
    refine ⟨took,.closed inside ?_ ?_ (earlier.finishes finished) all⟩
    · intro empty
      have size := congrArg List.length (read.symm.trans empty)
      simp at size
    · rw [read]
      exact unfinished_short short bound
  | failed reset fails => exact ⟨took,.failed inside reset fails⟩

theorem pollHeader_spec (lawful : Lawful v q) {got : Bytes} (s : σ) (room : got.length < 4) :
    Gives v s (.header got) (pollHeader q got s) := by
  obtain ⟨taken,took,reads⟩ := lawful.reads 4 got s room.le
  unfold pollHeader
  generalize q.readExact 4 got s = out at took reads
  obtain ⟨outcome,s'⟩ := out
  cases reads with
  | ready size =>
    have digits : toBeBytes 4 (fromBeBytes (got ++ taken)) = got ++ taken := by
      rw [← size]
      exact toBeBytes_fromBeBytes _
    have small : fromBeBytes (got ++ taken) < 256 ^ 4 := size ▸ fromBeBytes_lt (got ++ taken)
    simp only
    by_cases large : maxFrameLen < fromBeBytes (got ++ taken)
    · rw [if_pos large]
      exact ⟨taken,took,.oversized trivial ⟨large,small⟩ digits.symm⟩
    · rw [if_neg large]
      refine pollPayload_spec lawful trivial (Nat.zero_le _) (Nat.not_lt.mp large) took ?_
      rw [digits,List.append_nil]
      rfl
  | pending short => exact ⟨taken,took,.pending trivial short trivial rfl⟩
  | finishedEarly short finished alive all =>
    cases size : (got ++ taken).length with
    | zero =>
      obtain ⟨rfl,rfl⟩ := List.append_eq_nil_iff.mp (List.length_eq_zero_iff.mp size)
      exact ⟨[],took,.eof finished alive all⟩
    | succ n =>
      refine ⟨taken,took,.closed trivial ?_ (unfinished_header short) finished all⟩
      intro empty
      rw [RecvPhase.held] at empty
      simp [empty] at size
  | failed reset fails => exact ⟨taken,took,.failed trivial reset fails⟩

theorem poll_spec (lawful : Lawful v q) {phase : RecvPhase} (s : σ) (ok : phase.Ok) :
    Gives v s phase (poll q phase s) := by
  cases phase with
  | opening got => exact pollAccept_spec lawful s ok
  | header got => exact pollHeader_spec lawful s ok
  | payload len got =>
    exact pollPayload_spec lawful trivial (Nat.le_of_lt ok.1) ok.2 (.refl v s) (List.append_nil _)
  | refused => exact ⟨[],.refl v s,.idle⟩

end Spec

end Streamhaul.Quic
