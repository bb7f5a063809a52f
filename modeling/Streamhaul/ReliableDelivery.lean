import Streamhaul.ReliableReceiver

/-! A reliable channel between two honest ends: what is received is what was sent. -/
namespace Streamhaul.Quic

open ByteStream Delimited Machine

def sentMessage : Reply → Option Bytes
  | .sent m => some m
  | _ => none

/-- The messages for which `send` returned. -/
def sent (history : List Reply) : List Bytes := history.filterMap sentMessage

/-- A `send`, or an `open_channel`, failed or was dropped. -/
def Reply.Cuts (reply : Reply) : Prop := reply = .interrupted ∨ reply = .rejected .io

def Interrupted (history : List Reply) : Prop := ∃ r ∈ history, r.Cuts

/-- A failure of a `recv`. -/
def Reply.Fails (reply : Reply) : Prop := ∃ e, reply = .received (.error e)

@[simp] theorem sent_concat (history : List Reply) (reply : Reply) :
    sent (history ++ [reply]) = sent history ++ (sentMessage reply).toList := filterMap_concat _ _ _

theorem Interrupted.concat {history : List Reply} (interrupted : Interrupted history) (reply : Reply) :
    Interrupted (history ++ [reply]) := by
  obtain ⟨r,member,cuts⟩ := interrupted
  exact ⟨r,List.mem_append_left _ member,cuts⟩

theorem Reply.Cuts.interrupted {reply : Reply} (cuts : reply.Cuts) (history : List Reply) :
    Interrupted (history ++ [reply]) := ⟨reply,by simp,cuts⟩

theorem interrupted_concat {history : List Reply} {reply : Reply} (uncut : ¬reply.Cuts) :
    Interrupted (history ++ [reply]) ↔ Interrupted history := by
  refine ⟨?_,fun interrupted => interrupted.concat reply⟩
  rintro ⟨r,member,cuts⟩
  rcases List.mem_append.mp member with earlier | now
  · exact ⟨r,earlier,cuts⟩
  · exact absurd (List.mem_singleton.mp now ▸ cuts) uncut

/-- The bytes of the messages. -/
def messagesWire (messages : List Bytes) : Bytes := wire Item.code (messages.map .message)

theorem messagesWire_concat (messages : List Bytes) (m : Bytes) :
    messagesWire (messages ++ [m]) = messagesWire messages ++ (Item.message m).code := by simp [messagesWire]

/-- What has been written, as the sending side stands: the header or a part of it; then the messages that were sent, and
part of the frame of one that is being sent or was interrupted. -/
inductive Content (spec : ChannelSpec) (messages : List Bytes) (interrupted : Prop) : Sending → Bytes → Prop
  | opening {left bytes} (some_left : left ≠ []) (header : bytes ++ left = spec.encodeHeader) (unsent : messages = []) :
      Content spec messages interrupted (.opening left) bytes
  | ready : Content spec messages interrupted .ready (spec.encodeHeader ++ messagesWire messages)
  | writing {msg part left} (some_left : left ≠ []) (valid : msg.length ≤ maxFrameLen)
      (frame : part ++ left = (Item.message msg).code) : Content spec messages interrupted (.writing msg left)
        (spec.encodeHeader ++ (messagesWire messages ++ part))
  | cut {part} (unfinished : Unfinished Item.Valid Item.code part) (why : interrupted) :
      Content spec messages interrupted .cut (spec.encodeHeader ++ (messagesWire messages ++ part))
  | unopened {left bytes} (some_left : left ≠ []) (header : bytes ++ left = spec.encodeHeader) (why : interrupted)
      (unsent : messages = []) : Content spec messages interrupted .closed bytes
  | closed {part} (unfinished : Unfinished Item.Valid Item.code part) (why : part ≠ [] → interrupted) :
      Content spec messages interrupted .closed (spec.encodeHeader ++ (messagesWire messages ++ part))

namespace Content

variable {spec : ChannelSpec} {messages : List Bytes} {interrupted interrupted' : Prop} {sending : Sending} {bytes : Bytes}

theorem mono (content : Content spec messages interrupted sending bytes) (more : interrupted → interrupted') :
    Content spec messages interrupted' sending bytes := by
  cases content with
  | opening some_left header unsent => exact .opening some_left header unsent
  | ready => exact .ready
  | writing some_left valid frame => exact .writing some_left valid frame
  | cut unfinished why => exact .cut unfinished (more why)
  | unopened some_left header why unsent => exact .unopened some_left header (more why) unsent
  | closed unfinished why => exact .closed unfinished (fun some_part => more (why some_part))

theorem header_short {left : Bytes} (some_left : left ≠ []) (header : bytes ++ left = spec.encodeHeader) :
    bytes.length < 2 := by
  have size := congrArg List.length header
  have lacking := List.length_pos_of_ne_nil some_left
  simp only [List.length_append,ChannelSpec.encodeHeader,List.length_cons,List.length_nil] at size
  omega

/-- Behind the header are the messages, and then part of a frame. -/
theorem behind_header (content : Content spec messages interrupted sending bytes) (size : 2 ≤ bytes.length) :
    ∃ part, bytes = spec.encodeHeader ++ (messagesWire messages ++ part) ∧ Unfinished Item.Valid Item.code part ∧
      (sending = .closed → part ≠ [] → interrupted) := by
  cases content with
  | opening some_left header unsent => exact absurd (header_short some_left header) (Nat.not_lt.mpr size)
  | ready => exact ⟨[],by simp,unfinished_empty,by simp⟩
  | writing some_left valid frame =>
    exact ⟨_,rfl,unfinished_of_short Item.selfDelimiting (m := .message _) valid _ frame some_left,by simp⟩
  | cut unfinished why => exact ⟨_,rfl,unfinished,by simp⟩
  | unopened some_left header why unsent => exact absurd (header_short some_left header) (Nat.not_lt.mpr size)
  | closed unfinished why => exact ⟨_,rfl,unfinished,fun _ => why⟩

end Content

section Sender

variable {σ ν : Type} {v : View σ} {q : ByteStream σ ν}

/-- What a call of the sending side does to the stream and to what was written. -/
structure Sends (v : View σ) (spec : ChannelSpec) (history : List Reply) (s : σ) (out : Reply × Sending × σ) : Prop where
  elsewhere : Elsewhere v s out.2.2
  content : Content spec (sent (history ++ [out.1])) (Interrupted (history ++ [out.1])) out.2.1 (v.written out.2.2)
  ended : v.finished out.2.2 → v.finished s ∨ out.2.1 = .closed
  closes : out.2.1 = .closed → v.finished out.2.2 ∨ v.reset out.2.2
  silent : (∀ r, out.1 ≠ .accepted r) ∧ ∀ r, out.1 ≠ .received r
  valid : ∀ m, sentMessage out.1 = some m → m.length ≤ maxFrameLen

variable {spec : ChannelSpec} {history : List Reply} {s : σ} {sending : Sending}

/-- A call that does nothing. -/
theorem sends_nothing {reply : Reply} (content : Content spec (sent history) (Interrupted history) sending (v.written s))
    (closed : sending = .closed → v.finished s ∨ v.reset s) (unsent : sentMessage reply = none)
    (silent : (∀ r, reply ≠ .accepted r) ∧ ∀ r, reply ≠ .received r) : Sends v spec history s (reply,sending,s) where
  elsewhere := ⟨.refl v s,rfl⟩
  content := by
    simp only [sent_concat,unsent,Option.toList_none,List.append_nil]
    exact content.mono (fun interrupted => interrupted.concat reply)
  ended := .inl
  closes := closed
  silent := silent
  valid := by simp [unsent]

theorem sends_pollWrite (lawful : Lawful v q) {msg part left : Bytes} (valid : msg.length ≤ maxFrameLen)
    (frame : part ++ left = (Item.message msg).code)
    (bytes : v.written s = spec.encodeHeader ++ (messagesWire (sent history) ++ part)) :
    Sends v spec history s (pollWrite q msg left s) := by
  have writes := lawful.writes left s
  obtain ⟨elsewhere,ended⟩ := lawful.writing left s
  unfold pollWrite
  generalize q.writeAll left s = out at writes elsewhere ended
  obtain ⟨outcome,s'⟩ := out
  cases writes with
  | ready all =>
    refine ⟨elsewhere,?_,fun finished => .inl (ended finished),by simp,by simp,by simpa [sentMessage] using valid⟩
    have written : v.written s' = spec.encodeHeader ++ messagesWire (sent (history ++ [.sent msg])) := by
      simp [all,bytes,sentMessage,messagesWire_concat,frame]
    simp only [written]
    exact .ready
  | @pending taken rest split some_rest more =>
    refine ⟨elsewhere,?_,fun finished => .inl (ended finished),by simp,by simp,by simp [sentMessage]⟩
    have written : v.written s' = spec.encodeHeader ++ (messagesWire (sent (history ++ [.pending])) ++ (part ++ taken)) := by
      simp [more,bytes,sentMessage]
    simp only [written]
    exact .writing some_rest valid (by rw [List.append_assoc,split,frame])
  | @failed taken rest split some_rest more =>
    refine ⟨elsewhere,?_,fun finished => .inl (ended finished),by simp,by simp,by simp [sentMessage]⟩
    have written : v.written s' =
        spec.encodeHeader ++ (messagesWire (sent (history ++ [.rejected .io])) ++ (part ++ taken)) := by
      simp [more,bytes,sentMessage]
    have short : (part ++ taken) ++ rest = (Item.message msg).code := by rw [List.append_assoc,split,frame]
    simp only [written]
    exact .cut (unfinished_of_short Item.selfDelimiting (m := .message msg) valid rest short some_rest)
      (Reply.Cuts.interrupted (.inr rfl) history)

theorem sends_send (lawful : Lawful v q) (msg : Bytes)
    (content : Content spec (sent history) (Interrupted history) .ready (v.written s)) :
    Sends v spec history s (send q msg .ready s) := by
  unfold send encodeFrame
  by_cases huge : u32Max < msg.length
  · rw [if_pos huge]
    exact sends_nothing content (by simp) rfl (by simp)
  rw [if_neg huge]
  by_cases large : maxFrameLen < msg.length
  · rw [if_pos large]
    exact sends_nothing content (by simp) rfl (by simp)
  rw [if_neg large]
  refine sends_pollWrite lawful (Nat.not_lt.mp large) (List.nil_append _) ?_
  rw [List.append_nil]
  generalize v.written s = bytes at content
  cases content
  rfl

theorem sends_close (lawful : Lawful v q) {reply : Reply} (unsent : sentMessage reply = none)
    (silent : (∀ r, reply ≠ .accepted r) ∧ ∀ r, reply ≠ .received r)
    (content : Content spec (sent history) (Interrupted (history ++ [reply])) .closed (v.written s)) :
    Sends v spec history s (reply,.closed,q.close s) where
  elsewhere := (lawful.closing s).1
  content := by
    simp only [sent_concat,unsent,Option.toList_none,List.append_nil,(lawful.closing s).2]
    exact content
  ended _ := .inr rfl
  closes _ := lawful.closed s
  silent := silent
  valid := by simp [unsent]

theorem sends_pollOpen (lawful : Lawful v q) {left : Bytes}
    (content : Content spec (sent history) (Interrupted history) (.opening left) (v.written s)) :
    Sends v spec history s (pollOpen q left s) := by
  obtain ⟨some_left,header,unsent⟩ : left ≠ [] ∧ v.written s ++ left = spec.encodeHeader ∧ sent history = [] := by
    cases content with
    | opening some_left header unsent => exact ⟨some_left,header,unsent⟩
  have writes := lawful.writes left s
  obtain ⟨elsewhere,ended⟩ := lawful.writing left s
  unfold pollOpen
  generalize q.writeAll left s = out at writes elsewhere ended
  obtain ⟨outcome,s'⟩ := out
  cases writes with
  | ready all =>
    refine ⟨elsewhere,?_,fun finished => .inl (ended finished),by simp,by simp,by simp [sentMessage]⟩
    have written : v.written s' = spec.encodeHeader ++ messagesWire (sent (history ++ [.opened])) := by
      simp [all,header,sentMessage,unsent,messagesWire]
    simp only [written]
    exact .ready
  | @pending taken rest split some_rest more =>
    refine ⟨elsewhere,?_,fun finished => .inl (ended finished),by simp,by simp,by simp [sentMessage]⟩
    exact .opening some_rest (by rw [more,List.append_assoc,split,header]) (by simp [unsent,sentMessage])
  | @failed taken rest split some_rest more =>
    have closed : Sends v spec history s' (.rejected .io,.closed,q.close s') := by
      refine sends_close lawful rfl (by simp) (.unopened some_rest ?_ (Reply.Cuts.interrupted (.inr rfl) history) unsent)
      rw [more,List.append_assoc,split,header]
    exact { closed with
      elsewhere := ⟨elsewhere.toLater.trans closed.elsewhere.toLater,closed.elsewhere.read.trans elsewhere.read⟩
      ended := fun _ => .inr rfl }

/-- How the calls may come: a `send` that failed or was dropped is the last one, and no `recv` is dropped inside a
message. -/
def Admitted (link : Link σ) : Call ν → Prop
  | .send _ => link.sending ≠ .cut
  | .drop => link.phase.AtRest
  | _ => True

theorem write_closed (call : Call ν) : Link.write q .closed s call = (.idle,.closed,s) := by
  cases call <;> rfl

/-- Every call of the sending side. -/
theorem sends_write (lawful : Lawful v q) (call : Call ν) (able : ∀ msg, call = .send msg → sending ≠ .cut)
    (content : Content spec (sent history) (Interrupted history) sending (v.written s))
    (closed : sending = .closed → v.finished s ∨ v.reset s) :
    Sends v spec history s (Link.write q sending s call) := by
  have nothing : Sends v spec history s (.idle,sending,s) := sends_nothing content closed rfl (by simp)
  cases call with
  | send msg =>
    cases sending with
    | ready => exact sends_send lawful msg content
    | cut => exact absurd rfl (able msg rfl)
    | _ => exact nothing
  | pollSend =>
    cases sending with
    | opening left => exact sends_pollOpen lawful content
    | writing msg left =>
      generalize bytes : v.written s = written at content
      cases content with
      | writing some_left valid frame => exact sends_pollWrite lawful valid frame bytes
    | _ => exact nothing
  | dropSend =>
    have interrupted : Interrupted (history ++ [.interrupted]) := Reply.Cuts.interrupted (.inl rfl) history
    cases sending with
    | opening left =>
      cases content with
      | opening some_left header unsent =>
        exact sends_close lawful rfl (by simp) (.unopened some_left header interrupted unsent)
    | writing msg left =>
      generalize bytes : v.written s = written at content
      cases content with
      | writing some_left valid frame =>
        have unfinished := unfinished_of_short Item.selfDelimiting (m := .message msg) valid left frame some_left
        refine ⟨⟨.refl v s,rfl⟩,?_,.inl,by simp [Link.write],by simp [Link.write],by simp [Link.write,sentMessage]⟩
        simp only [Link.write,bytes,sent_concat,sentMessage,Option.toList_none,List.append_nil]
        exact .cut unfinished interrupted
    | _ => exact nothing
  | close =>
    cases sending with
    | ready =>
      refine sends_close lawful rfl (by simp) ?_
      generalize v.written s = written at content
      cases content with
      | ready =>
        rw [← List.append_nil (messagesWire _)]
        exact .closed unfinished_empty (absurd rfl)
    | cut =>
      refine sends_close lawful rfl (by simp) ?_
      generalize v.written s = written at content
      cases content with
      | cut unfinished why => exact .closed unfinished (fun _ => why.concat _)
    | _ => exact nothing
  | _ => cases sending <;> exact nothing

end Sender

section Books

variable {σ ν : Type} {v : View σ} {q : ByteStream σ ν} {history : List Reply} {link : Link σ}

section Polls

variable {s s' : σ} {phase phase' : RecvPhase} {taken : Bytes} {reply : Reply}

theorem Polled.unsent (polled : Polled v s s' phase taken reply phase') : sentMessage reply = none := by
  cases polled <;> rfl

theorem Polled.uncut (polled : Polled v s s' phase taken reply phase') : ¬reply.Cuts := by
  cases polled <;> simp [Reply.Cuts]

end Polls

/-- The books of a channel between two honest ends. -/
structure Account (v : View σ) (spec : ChannelSpec) (history : List Reply) (link : Link σ) (lost : Bytes) : Prop
    extends Receiving v history link.stream link.phase lost where
  written : ∀ m ∈ sent history, m.length ≤ maxFrameLen
  content : Content spec (sent history) (Interrupted history) link.sending (v.written link.stream)
  ended : v.finished link.stream → link.sending = .closed
  closed : link.sending = .closed → v.finished link.stream ∨ v.reset link.stream

namespace Account

variable {spec : ChannelSpec} {history : List Reply} {link : Link σ} {lost : Bytes}

theorem opened (lawful : Lawful v q) (spec : ChannelSpec) : Account v spec [] (.opened q spec) [] where
  toReceiving := .opened lawful
  written := by simp [sent]
  content := .opening (by simp [ChannelSpec.encodeHeader]) (by simp [Link.opened,lawful.opened.1]) rfl
  ended finished := absurd finished lawful.opened.2
  closed := by simp [Link.opened]

/-- A step that writes nothing. -/
theorem unsent (account : Account v spec history link lost) {s' : σ} {phase' : RecvPhase} {lost' : Bytes} {reply : Reply}
    (receiving : Receiving v (history ++ [reply]) s' phase' lost') (unsent : sentMessage reply = none)
    (written : v.written s' = v.written link.stream) (finishes : v.finished s' → v.finished link.stream)
    (later : Later v link.stream s') :
    Account v spec (history ++ [reply]) { link with phase := phase', stream := s' } lost' where
  toReceiving := receiving
  written := by simpa [unsent] using account.written
  content := by
    simp only [sent_concat,unsent,Option.toList_none,List.append_nil,written]
    exact account.content.mono (fun interrupted => interrupted.concat reply)
  ended finished := account.ended (finishes finished)
  closed now := (account.closed now).imp (fun finished => (later.finished finished).1) later.reset

theorem poll (account : Account v spec history link lost) (lawful : Lawful v q) :
    ∃ lost', Account v spec (history ++ [(link.step q .poll).1]) (link.step q .poll).2 lost' := by
  obtain ⟨lost',receiving⟩ := account.toReceiving.poll lawful
  obtain ⟨taken,took,polled⟩ := poll_spec lawful link.stream account.ok
  exact ⟨lost',account.unsent receiving polled.unsent took.written took.finishes took.toLater⟩

theorem write (account : Account v spec history link lost) (lawful : Lawful v q) (call : Call ν)
    (able : ∀ msg, call = .send msg → link.sending ≠ .cut) {out : Reply × Sending × σ}
    (made : Link.write q link.sending link.stream call = out) :
    Account v spec (history ++ [out.1]) { link with sending := out.2.1, stream := out.2.2 } lost := by
  have sends := sends_write lawful call able account.content account.closed
  rw [made] at sends
  have unread : readItem out.1 = none := by
    cases reply : out.1 with
    | received r => exact absurd reply (sends.silent.2 r)
    | _ => rfl
  exact {
    toReceiving := (account.toReceiving.elsewhere sends.elsewhere).quiet _ unread
    written := by
      intro m member
      simp only [sent_concat,List.mem_append,Option.mem_toList] at member
      rcases member with earlier | now
      · exact account.written m earlier
      · exact sends.valid m now
    content := sends.content
    ended := by
      intro finished
      rcases sends.ended finished with earlier | now
      · rw [account.ended earlier,write_closed] at made
        simp [← made]
      · exact now
    closed := sends.closes }

theorem step (account : Account v spec history link lost) (lawful : Lawful v q) (call : Call ν)
    (admitted : Admitted link call) :
    ∃ lost', Account v spec (history ++ [(link.step q call).1]) (link.step q call).2 lost' := by
  cases call with
  | network event =>
    obtain ⟨elsewhere,written,finishes⟩ := lawful.carrying event link.stream
    refine ⟨lost,account.unsent ((account.toReceiving.elsewhere elsewhere).quiet _ rfl) rfl written finishes ?_⟩
    exact elsewhere.toLater
  | poll => exact account.poll lawful
  | drop =>
    exact ⟨lost,account.unsent ((account.toReceiving.dropped admitted).quiet _ rfl) rfl rfl id (.refl v _)⟩
  | send msg => exact ⟨lost,account.write lawful (.send msg) (fun _ _ => admitted) rfl⟩
  | pollSend => exact ⟨lost,account.write lawful .pollSend (by simp) rfl⟩
  | dropSend => exact ⟨lost,account.write lawful .dropSend (by simp) rfl⟩
  | close => exact ⟨lost,account.write lawful .close (by simp) rfl⟩

theorem messages_valid (account : Account v spec history link lost) :
    ∀ i ∈ (sent history).map Item.message, i.Valid := by
  intro i member
  obtain ⟨m,sent_m,rfl⟩ := List.mem_map.mp member
  exact account.written m sent_m

theorem itemsRead_isPrefix (account : Account v spec history link lost) (lawful : Lawful v q) :
    itemsRead history <+: (sent history).map .message := by
  by_cases inside : link.phase.InChannel
  · obtain ⟨size,behind,read⟩ := account.read_wire lawful inside
    obtain ⟨part,bytes,unfinished,_⟩ := account.content.behind_header size
    rw [bytes] at read
    exact isPrefix_of_wire Item.selfDelimiting account.read account.messages_valid unfinished read
  · rw [account.aligned.items_nil inside]
    exact List.nil_prefix

theorem inOrder (account : Account v spec history link lost) (lawful : Lawful v q) :
    delivered history <+: sent history := by
  have payloads : ((sent history).map Item.message).filterMap Item.payload? = sent history := by
    rw [List.filterMap_map]
    exact List.filterMap_some
  have read := (account.itemsRead_isPrefix lawful).filterMap Item.payload?
  rwa [payloads] at read

/-- When all of a finished stream was taken and nothing but an unfinished word is left, everything that was sent was
read, and the rest is what an interrupted `send` wrote. -/
theorem whole (account : Account v spec history link []) {s' : σ} {taken : Bytes} (took : Took v link.stream taken s')
    (inside : link.phase.InChannel) (finished : v.finished link.stream) (all : v.read s' = v.written s')
    (unread : Unfinished Item.Valid Item.code (link.phase.held ++ taken)) :
    itemsRead history = (sent history).map .message ∧ (link.phase.held ++ taken ≠ [] → Interrupted history) := by
  obtain ⟨size,read⟩ := account.aligned.take inside taken
  rw [← took.read,all,took.written] at size read
  obtain ⟨part,bytes,unfinished,why⟩ := account.content.behind_header size
  rw [bytes] at read
  obtain ⟨same,rest⟩ := eq_of_wire Item.selfDelimiting account.read account.messages_valid unread unfinished read
  exact ⟨same,fun some_left => why (account.ended finished) (rest ▸ some_left)⟩

/-- Where something was taken or held, nothing was lost before. -/
theorem lost_nil (account : Account v spec history link lost) (lawful : Lawful v q) {s' : σ} {taken : Bytes}
    (took : Took v link.stream taken s') (some_left : link.phase.held ++ taken ≠ []) : lost = [] := by
  by_contra some_lost
  have nothing := (account.spent some_lost).takes_nothing lawful took
  exact some_left (by rw [(account.gone some_lost).1,nothing]; rfl)

end Account

/-- What the two ends of a channel may conclude from the replies so far. -/
structure Faithful (v : View σ) (spec : ChannelSpec) (history : List Reply) (s : σ) : Prop where
  accepted : ∀ s, .accepted (.ok s) ∈ history → s = { spec with reliability := .reliable }
  inOrder : delivered history <+: sent history
  complete : .received (.ok none) ∈ history → (∀ r ∈ history, ¬r.Fails) → delivered history = sent history
  failures : ∀ e, .received (.error e) ∈ history →
    e = .streamRead ∧ v.reset s ∨ e = .streamClosed ∧ Interrupted history

/-- The same, with what the state remembers of it. -/
structure Verdict (v : View σ) (spec : ChannelSpec) (history : List Reply) (link : Link σ) : Prop where
  accepted : ∀ s, .accepted (.ok s) ∈ history → s = { spec with reliability := .reliable }
  complete : .received (.ok none) ∈ history → (∀ r ∈ history, ¬r.Fails) →
    delivered history = sent history ∧ link.sending = .closed
  failures : ∀ e, .received (.error e) ∈ history →
    e = .streamRead ∧ v.reset link.stream ∨ e = .streamClosed ∧ Interrupted history

theorem Account.header_read {spec : ChannelSpec} {lost got taken : Bytes} {s' : σ}
    (account : Account v spec history link lost) (lawful : Lawful v q) (took : Took v link.stream taken s')
    (opening : link.phase = .opening got) (size : (got ++ taken).length = 2) : got ++ taken = spec.encodeHeader := by
  have aligned := account.aligned
  rw [opening] at aligned
  obtain ⟨_,_,rfl⟩ := aligned
  obtain ⟨behind,written⟩ := lawful.ordered s'
  rw [took.written,took.read] at written
  have enough : 2 ≤ (v.written link.stream).length := by
    rw [← written,List.length_append]
    omega
  obtain ⟨part,bytes,_⟩ := account.content.behind_header enough
  rw [bytes] at written
  exact (List.append_inj written (by rw [size]; rfl)).1

theorem Account.accepted_spec {spec s : ChannelSpec} {lost taken : Bytes} {s' : σ}
    {phase' : RecvPhase} (account : Account v spec history link lost) (lawful : Lawful v q)
    (took : Took v link.stream taken s') (polled : Polled v link.stream s' link.phase taken (.accepted (.ok s)) phase') :
    s = { spec with reliability := .reliable } := by
  generalize here : link.phase = phase at polled
  cases polled with
  | accepted size decoded =>
    rw [account.header_read lawful took here size,ChannelSpec.decodeHeader_encodeHeader] at decoded
    exact (Except.ok.inj decoded).symm

namespace Verdict

variable {spec : ChannelSpec} {history : List Reply} {link link' : Link σ} {lost : Bytes}

/-- A failure keeps its reason. -/
theorem failed_earlier (verdict : Verdict v spec history link) {reply : Reply} {s' : σ} {e : StreamError}
    (reset : v.reset link.stream → v.reset s') (earlier : .received (.error e) ∈ history) :
    e = .streamRead ∧ v.reset s' ∨ e = .streamClosed ∧ Interrupted (history ++ [reply]) :=
  (verdict.failures e earlier).imp (And.imp_right reset) (And.imp_right (fun cut => cut.concat reply))

/-- A reply that says nothing about the receiving side. -/
theorem quiet (verdict : Verdict v spec history link) {reply : Reply}
    (silent : (∀ s, reply ≠ .accepted s) ∧ ∀ r, reply ≠ .received r)
    (closed : link.sending = .closed → sentMessage reply = none ∧ link'.sending = .closed)
    (reset : v.reset link.stream → v.reset link'.stream) : Verdict v spec (history ++ [reply]) link' where
  accepted s member := by
    rcases List.mem_append.mp member with earlier | now
    · exact verdict.accepted s earlier
    · exact absurd (List.mem_singleton.mp now).symm (silent.1 _)
  complete eof clean := by
    rcases List.mem_append.mp eof with earlier | now
    · obtain ⟨same,done⟩ := verdict.complete earlier (fun r member => clean r (List.mem_append_left _ member))
      have unread : readItem reply = none := by
        cases reply <;> first | rfl | exact absurd rfl (silent.2 _)
      exact ⟨by simpa [delivered,(closed done).1,unread] using same,(closed done).2⟩
    · exact absurd (List.mem_singleton.mp now).symm (silent.2 _)
  failures e member := by
    rcases List.mem_append.mp member with earlier | now
    · exact verdict.failed_earlier reset earlier
    · exact absurd (List.mem_singleton.mp now).symm (silent.2 _)

/-- At a clean end everything was delivered. -/
theorem complete_of_eof (account : Account v spec history link lost) {s' : σ} {taken : Bytes} {phase' : RecvPhase}
    (took : Took v link.stream taken s')
    (polled : Polled v link.stream s' link.phase taken (.received (.ok none)) phase')
    (clean : ∀ r ∈ history, ¬r.Fails) : delivered history = sent history ∧ link.sending = .closed := by
  obtain ⟨boundary,rfl,finished,alive,all⟩ := polled.boundary
  have nothing : lost = [] := by
    by_contra some_lost
    rcases (account.gone some_lost).2 with failed | ⟨_,closed⟩
    · exact alive failed
    · exact clean _ closed ⟨_,rfl⟩
  subst nothing
  have unread : Unfinished Item.Valid Item.code (link.phase.held ++ []) := by
    rw [boundary]
    exact unfinished_empty
  obtain ⟨same,_⟩ := account.whole took (boundary ▸ trivial) finished all unread
  refine ⟨?_,account.ended finished⟩
  rw [delivered,same,List.filterMap_map]
  exact List.filterMap_some

theorem poll (verdict : Verdict v spec history link) (lawful : Lawful v q) (account : Account v spec history link lost)
    {reply : Reply} {phase : RecvPhase} {s : σ} {taken lost' : Bytes} (took : Took v link.stream taken s)
    (polled : Polled v link.stream s link.phase taken reply phase)
    (after : Account v spec (history ++ [reply]) { link with phase := phase, stream := s } lost') :
    Verdict v spec (history ++ [reply]) { link with phase := phase, stream := s } where
  accepted s member := by
    rcases List.mem_append.mp member with earlier | now
    · exact verdict.accepted s earlier
    · obtain rfl := List.mem_singleton.mp now
      exact account.accepted_spec lawful took polled
  complete eof clean := by
    have earlier_clean : ∀ r ∈ history, ¬r.Fails := fun r member => clean r (List.mem_append_left _ member)
    have unsent : sent (history ++ [reply]) = sent history := by simp [polled.unsent]
    have inOrder := after.inOrder lawful
    rw [unsent] at inOrder ⊢
    have grows : delivered history <+: delivered (history ++ [reply]) := by simp [delivered]
    have known : delivered history = sent history ∧ link.sending = .closed := by
      rcases List.mem_append.mp eof with earlier | now
      · exact verdict.complete earlier earlier_clean
      · obtain rfl := List.mem_singleton.mp now
        exact complete_of_eof account took polled earlier_clean
    refine ⟨inOrder.eq_of_length_le ?_,known.2⟩
    rw [← known.1]
    exact grows.length_le
  failures e member := by
    rcases List.mem_append.mp member with earlier | now
    · exact verdict.failed_earlier took.reset earlier
    · obtain rfl := List.mem_singleton.mp now
      obtain ⟨sending,stream,phase₀⟩ := link
      cases polled with
      | @oversized _ _ len inside valid read =>
        -- a length above the limit was never sent
        have noted : .oversized len ∈ itemsRead (history ++ [.received (.error (.messageTooLarge len))]) := by
          simp [readItem]
        have foreign := (after.itemsRead_isPrefix lawful).subset noted
        obtain ⟨m,_,different⟩ := List.mem_map.mp foreign
        cases different
      | closed inside some_left unread finished all =>
        obtain rfl := account.lost_nil lawful took some_left
        exact .inr ⟨rfl,((account.whole took inside finished all unread).2 some_left).concat _⟩
      | failed inside reset fails => exact .inl ⟨rfl,reset⟩

theorem write (verdict : Verdict v spec history link) (lawful : Lawful v q) (account : Account v spec history link lost)
    (call : Call ν) (able : ∀ msg, call = .send msg → link.sending ≠ .cut) {out : Reply × Sending × σ}
    (made : Link.write q link.sending link.stream call = out) :
    Verdict v spec (history ++ [out.1]) { link with sending := out.2.1, stream := out.2.2 } := by
  have sends := sends_write lawful call able account.content account.closed
  rw [made] at sends
  refine verdict.quiet sends.silent ?_ sends.elsewhere.reset
  intro closed
  rw [← made,closed,write_closed]
  exact ⟨rfl,rfl⟩

theorem step (verdict : Verdict v spec history link) (lawful : Lawful v q) (account : Account v spec history link lost)
    (call : Call ν) (admitted : Admitted link call) :
    Verdict v spec (history ++ [(link.step q call).1]) (link.step q call).2 := by
  cases call with
  | poll =>
    obtain ⟨lost',after⟩ := account.poll lawful
    obtain ⟨taken,took,polled⟩ := poll_spec lawful link.stream account.ok
    exact verdict.poll lawful account took polled after
  | network event =>
    exact verdict.quiet ⟨by simp [Link.step],by simp [Link.step]⟩ (fun closed => ⟨rfl,closed⟩)
      (lawful.carrying event link.stream).1.reset
  | drop => exact verdict.quiet ⟨by simp [Link.step],by simp [Link.step]⟩ (fun closed => ⟨rfl,closed⟩) id
  | send msg => exact verdict.write lawful account (.send msg) (fun _ _ => admitted) rfl
  | pollSend => exact verdict.write lawful account .pollSend (by simp) rfl
  | dropSend => exact verdict.write lawful account .dropSend (by simp) rfl
  | close => exact verdict.write lawful account .close (by simp) rfl

end Verdict

/-- The replies of a run. -/
def replies (q : ByteStream σ ν) (spec : ChannelSpec) (calls : List (Call ν)) : List Reply :=
  (trace (Link.step q) (.opened q spec) calls).filterMap (fun e => some e.response)

/-- The books and the verdict at the end of a run. -/
def Kept (v : View σ) (spec : ChannelSpec) (history : List Reply) (link : Link σ) : Prop :=
  Verdict v spec history link ∧ ∃ lost, Account v spec history link lost

theorem Kept.step {spec : ChannelSpec} {history : List Reply} {link : Link σ} (kept : Kept v spec history link)
    (lawful : Lawful v q) (call : Call ν) (admitted : Admitted link call) :
    Kept v spec (history ++ [(link.step q call).1]) (link.step q call).2 := by
  obtain ⟨verdict,lost,account⟩ := kept
  exact ⟨verdict.step lawful account call admitted,account.step lawful call admitted⟩

theorem kept_final (lawful : Lawful v q) (spec : ChannelSpec) (calls : List (Call ν))
    (admitted : ∀ e ∈ trace (Link.step q) (.opened q spec) calls, Admitted e.before e.call) :
    Kept v spec (replies q spec calls) (final (Link.step q) (.opened q spec) calls) := by
  refine history_invariant (Link.step q) _ Admitted (Kept v spec) ?_ [] _ calls ?_ admitted
  · exact fun history link call admitted kept => kept.step lawful call admitted
  · exact ⟨⟨by simp,by simp,by simp⟩,[],.opened lawful spec⟩

/-- Over every stream that keeps the laws and every run in which no `send` follows one that failed or was dropped, and
no `recv` is dropped inside a message: what is received is what was sent, in order and without gaps; a clean end that
no failure preceded means that all of it was received; and a failure is the reset of the stream or an interrupted
`send`. -/
theorem channel_faithful (lawful : Lawful v q) (spec : ChannelSpec) (calls : List (Call ν))
    (admitted : ∀ e ∈ trace (Link.step q) (.opened q spec) calls, Admitted e.before e.call) :
    Faithful v spec (replies q spec calls) (final (Link.step q) (.opened q spec) calls).stream := by
  obtain ⟨verdict,lost,account⟩ := kept_final lawful spec calls admitted
  exact ⟨verdict.accepted,account.inOrder lawful,fun eof clean => (verdict.complete eof clean).1,verdict.failures⟩

/-! Progress: once the sender is done and everything has arrived, the receiver gets to the end. -/

section Arrived

/-- When everything has arrived, a poll does not wait. -/
def Answers (v : View σ) (out : Reply × RecvPhase × σ) : Prop := out.1 ≠ .pending ∧ v.arrived out.2.2

theorem pollPayload_answers (lawful : Lawful v q) {len : Nat} {got : Bytes} {s : σ} (room : got.length ≤ len)
    (arrived : v.arrived s) : Answers v (pollPayload q len got s) := by
  obtain ⟨arrived',ready⟩ := lawful.settled len got s arrived room
  unfold pollPayload
  generalize q.readExact len got s = out at arrived' ready
  obtain ⟨outcome,s'⟩ := out
  cases outcome with
  | pending more => exact absurd rfl (ready more)
  | _ => exact ⟨by simp,arrived'⟩

theorem poll_answers (lawful : Lawful v q) {phase : RecvPhase} {s : σ} (ok : phase.Ok) (waiting : phase ≠ .refused)
    (arrived : v.arrived s) : Answers v (poll q phase s) := by
  cases phase with
  | opening got =>
    obtain ⟨arrived',ready⟩ := lawful.settled 2 got s arrived (Nat.le_of_lt ok)
    simp only [poll]
    unfold pollAccept
    generalize q.readExact 2 got s = out at arrived' ready
    obtain ⟨outcome,s'⟩ := out
    cases outcome with
    | ready header =>
      simp only
      cases ChannelSpec.decodeHeader header <;> exact ⟨by simp,arrived'⟩
    | pending more => exact absurd rfl (ready more)
    | _ => exact ⟨by simp,arrived'⟩
  | header got =>
    obtain ⟨arrived',ready⟩ := lawful.settled 4 got s arrived (Nat.le_of_lt ok)
    simp only [poll]
    unfold pollHeader
    generalize q.readExact 4 got s = out at arrived' ready
    obtain ⟨outcome,s'⟩ := out
    cases outcome with
    | ready lenBuf =>
      simp only
      split
      · exact ⟨by simp,arrived'⟩
      · exact pollPayload_answers lawful (Nat.zero_le _) arrived'
    | pending more => exact absurd rfl (ready more)
    | finishedEarly n => cases n <;> exact ⟨by simp,arrived'⟩
    | failed => exact ⟨by simp,arrived'⟩
  | payload len got => exact pollPayload_answers lawful (Nat.le_of_lt ok.1) arrived
  | refused => exact absurd rfl waiting

end Arrived

/-- The channel has been closed without an interrupted `send`, and everything has arrived. -/
structure Settled (v : View σ) (spec : ChannelSpec) (history : List Reply) (link : Link σ) : Prop where
  kept : Kept v spec history link
  uncut : ¬Interrupted history
  arrived : v.arrived link.stream
  waiting : link.phase ≠ .refused

/-- At the end of a stream, a poll that does not fail reads a message or finds the end. -/
theorem Polled.answered {s s' : σ} {phase phase' : RecvPhase} {taken : Bytes} {reply : Reply}
    (polled : Polled v s s' phase taken reply phase') (inside : phase.InChannel) (ready : reply ≠ .pending)
    (none_failed : ∀ e, reply ≠ .received (.error e)) :
    reply = .received (.ok none) ∨ ∃ m, reply = .received (.ok (some m)) := by
  cases polled with
  | message => exact .inr ⟨_,rfl⟩
  | eof => exact .inl rfl
  | oversized => exact absurd rfl (none_failed _)
  | closed => exact absurd rfl (none_failed _)
  | failed => exact absurd rfl (none_failed _)
  | pending => exact absurd rfl ready
  | _ => exact inside.elim

theorem ne_refused {phase : RecvPhase} (inside : phase.InChannel) : phase ≠ .refused := by
  rintro rfl
  exact inside

namespace Settled

variable {spec : ChannelSpec} {history : List Reply} {link : Link σ}

/-- What has arrived begins with the header, so a channel that is waited for is accepted. -/
theorem enters (settled : Settled v spec history link) (lawful : Lawful v q) :
    (link.step q .poll).2.phase.InChannel := by
  obtain ⟨verdict,lost,account⟩ := settled.kept
  obtain ⟨taken,took,polled⟩ := poll_spec lawful link.stream account.ok
  obtain ⟨ready,arrived⟩ := poll_answers lawful account.ok settled.waiting settled.arrived
  have finished := (lawful.arrived _ settled.arrived).1
  have alive := (lawful.arrived _ arrived).2
  show (poll q link.phase link.stream).2.1.InChannel
  by_cases inside : link.phase.InChannel
  · exact polled.inside inside
  generalize poll q link.phase link.stream = out at took polled ready alive
  obtain ⟨reply,phase',s'⟩ := out
  generalize here : link.phase = phase at polled inside
  cases polled with
  | accepted => trivial
  | undecoded size decoded =>
    rw [account.header_read lawful took here size,ChannelSpec.decodeHeader_encodeHeader] at decoded
    cases decoded
  | unopened short _ all =>
    -- the header was written, since no future was interrupted
    have aligned := account.aligned
    rw [here] at aligned
    rw [aligned.2.2,← took.read,all,took.written] at short
    have content := account.content
    rw [account.ended finished] at content
    generalize v.written link.stream = bytes at content short
    cases content with
    | unopened some_left header why unsent => exact absurd why settled.uncut
    | closed unfinished why => simp [ChannelSpec.encodeHeader] at short
  | refused reset => exact absurd reset alive
  | opening => exact absurd rfl ready
  | idle => exact absurd here settled.waiting
  | message within => exact absurd within inside
  | oversized within => exact absurd within inside
  | pending within => exact absurd within inside
  | eof => exact absurd trivial inside
  | closed within => exact absurd within inside
  | failed within => exact absurd within inside

theorem next (settled : Settled v spec history link) (lawful : Lawful v q) :
    Settled v spec (history ++ [(link.step q .poll).1]) (link.step q .poll).2 := by
  obtain ⟨verdict,lost,account⟩ := settled.kept
  obtain ⟨taken,took,polled⟩ := poll_spec lawful link.stream account.ok
  obtain ⟨_,arrived⟩ := poll_answers lawful account.ok settled.waiting settled.arrived
  refine ⟨settled.kept.step lawful .poll trivial,?_,arrived,ne_refused (settled.enters lawful)⟩
  exact (interrupted_concat polled.uncut).not.mpr settled.uncut

theorem none_failed (settled : Settled v spec history link) (lawful : Lawful v q) (e : StreamError) :
    .received (.error e) ∉ history := by
  intro failed
  rcases settled.kept.1.failures e failed with ⟨_,reset⟩ | ⟨_,cut⟩
  · exact (lawful.arrived _ settled.arrived).2 reset
  · exact settled.uncut cut

theorem poll (settled : Settled v spec history link) (lawful : Lawful v q) (inside : link.phase.InChannel) :
    (link.step q .poll).1 = .received (.ok none) ∨ ∃ m, (link.step q .poll).1 = .received (.ok (some m)) := by
  obtain ⟨verdict,lost,account⟩ := settled.kept
  obtain ⟨taken,took,polled⟩ := poll_spec lawful link.stream account.ok
  obtain ⟨ready,_⟩ := poll_answers lawful account.ok settled.waiting settled.arrived
  refine polled.answered inside ready ?_
  intro e failed
  exact (settled.next lawful).none_failed lawful e (List.mem_append_right _ (List.mem_singleton.mpr failed.symm))

/-- The end was found, and everything that had been sent before was received. -/
def Ended (history history' : List Reply) : Prop :=
  .received (.ok none) ∈ history' ∧ delivered history' = sent history

/-- The history after some polls. -/
def polled (q : ByteStream σ ν) (history : List Reply) (link : Link σ) (n : Nat) : List Reply :=
  history ++ (trace (Link.step q) link (List.replicate n .poll)).filterMap (fun e => some e.response)

theorem polled_succ (history : List Reply) (link : Link σ) (n : Nat) :
    polled q history link (n + 1) = polled q (history ++ [(link.step q .poll).1]) (link.step q .poll).2 n := by
  rw [polled,List.replicate_succ,filterMap_trace_cons,polled,List.append_assoc]
  rfl

theorem delivered_message {reply : Reply} {m : Bytes} (message : reply = .received (.ok (some m))) :
    delivered (history ++ [reply]) = delivered history ++ [m] := by
  simp [message,delivered,readItem,Item.payload?]

theorem sent_poll (settled : Settled v spec history link) (lawful : Lawful v q) :
    sent (history ++ [(link.step q .poll).1]) = sent history := by
  obtain ⟨verdict,lost,account⟩ := settled.kept
  obtain ⟨taken,took,polled⟩ := poll_spec lawful link.stream account.ok
  simp [Link.step,polled.unsent]

theorem ended_of_eof (settled : Settled v spec history link) (lawful : Lawful v q)
    (eof : (link.step q .poll).1 = .received (.ok none)) : Ended history (polled q history link 1) := by
  have here : .received (.ok none) ∈ history ++ [(link.step q .poll).1] := by simp [eof]
  have clean : ∀ r ∈ history ++ [(link.step q .poll).1], ¬r.Fails := by
    rintro r member ⟨e,rfl⟩
    exact (settled.next lawful).none_failed lawful e member
  have all := ((settled.next lawful).kept.1.complete here clean).1
  rw [settled.sent_poll lawful] at all
  rw [polled_succ,polled,List.replicate_zero,trace,List.filterMap_nil,List.append_nil]
  exact ⟨here,all⟩

/-- Polling goes on to the end, with one poll for each message that is left. -/
theorem reaches_end (settled : Settled v spec history link) (lawful : Lawful v q) (inside : link.phase.InChannel)
    (left : Nat) (room : (sent history).length ≤ (delivered history).length + left) :
    ∃ n ≤ left + 1, Ended history (polled q history link n) := by
  induction left generalizing history link with
  | zero =>
    obtain eof | ⟨m,message⟩ := settled.poll lawful inside
    · exact ⟨1,le_rfl,settled.ended_of_eof lawful eof⟩
    · -- one message more than were sent
      obtain ⟨_,lost,account⟩ := (settled.next lawful).kept
      have order := (account.inOrder lawful).length_le
      simp only [settled.sent_poll lawful,delivered_message message,List.length_append,List.length_singleton] at order
      omega
  | succ left ih =>
    obtain eof | ⟨m,message⟩ := settled.poll lawful inside
    · exact ⟨1,by omega,settled.ended_of_eof lawful eof⟩
    · have fewer : (sent (history ++ [(link.step q .poll).1])).length ≤
          (delivered (history ++ [(link.step q .poll).1])).length + left := by
        simp only [settled.sent_poll lawful,delivered_message message,List.length_append,List.length_singleton]
        omega
      obtain ⟨n,bound,ended⟩ := ih (settled.next lawful) (settled.enters lawful) fewer
      refine ⟨n + 1,by omega,?_⟩
      rw [polled_succ]
      exact ⟨ended.1,ended.2.trans (settled.sent_poll lawful)⟩

/-- One poll more, if the channel is still to be accepted. -/
theorem drains (settled : Settled v spec history link) (lawful : Lawful v q) :
    ∃ n ≤ (sent history).length + 2, Ended history (polled q history link n) := by
  obtain ⟨n,bound,ended⟩ := (settled.next lawful).reaches_end lawful (settled.enters lawful) _ (Nat.le_add_left _ _)
  rw [settled.sent_poll lawful] at bound
  refine ⟨n + 1,by omega,?_⟩
  rw [polled_succ]
  exact ⟨ended.1,ended.2.trans (settled.sent_poll lawful)⟩

end Settled

theorem replies_append (spec : ChannelSpec) (calls more : List (Call ν)) :
    replies q spec (calls ++ more) = replies q spec calls ++
      (trace (Link.step q) (final (Link.step q) (.opened q spec) calls) more).filterMap (fun e => some e.response) := by
  rw [replies,trace_append,List.filterMap_append,replies]

theorem final_network (link : Link σ) (events : List ν) : final (Link.step q) link (events.map .network) =
    { link with stream := events.foldl (fun s event => q.network event s) link.stream } := by
  induction events generalizing link with
  | nil => rfl
  | cons event events ih => exact ih _

theorem replies_network (link : Link σ) (events : List ν) :
    (trace (Link.step q) link (events.map .network)).filterMap (fun e => some e.response) =
      List.replicate events.length .idle := by
  induction events generalizing link with
  | nil => rfl
  | cons event events ih =>
    rw [List.map_cons,filterMap_trace_cons,ih]
    rfl

theorem kept_network {spec : ChannelSpec} (kept : Kept v spec history link)
    (lawful : Lawful v q) (events : List ν) : Kept v spec (history ++ List.replicate events.length .idle)
      { link with stream := events.foldl (fun s event => q.network event s) link.stream } := by
  induction events generalizing history link with
  | nil => simpa using kept
  | cons event events ih =>
    have later := ih (kept.step lawful (.network event) trivial)
    simpa [List.replicate_succ,Link.step] using later

/-- Idle replies say nothing. -/
theorem sent_idle (history : List Reply) (n : Nat) : sent (history ++ List.replicate n .idle) = sent history := by
  simp [sent,sentMessage]

theorem interrupted_idle {n : Nat} (cut : Interrupted (history ++ List.replicate n .idle)) :
    Interrupted history := by
  obtain ⟨r,member,cuts⟩ := cut
  rcases List.mem_append.mp member with earlier | idle
  · exact ⟨r,earlier,cuts⟩
  · obtain rfl := (List.mem_replicate.mp idle).2
    simp [Reply.Cuts] at cuts

/-- The calls that let a closed channel come to its end. -/
def closing (events : List ν) (n : Nat) : List (Call ν) := events.map .network ++ List.replicate n .poll

theorem replies_closing (spec : ChannelSpec) (calls : List (Call ν)) (events : List ν) (n : Nat) :
    replies q spec (calls ++ closing events n) =
      Settled.polled q (replies q spec calls ++ List.replicate events.length .idle)
        { final (Link.step q) (.opened q spec) calls with
          stream := events.foldl (fun s event => q.network event s)
            (final (Link.step q) (.opened q spec) calls).stream } n := by
  rw [closing,replies_append,trace_append,List.filterMap_append,replies_network,final_network,Settled.polled,
    List.append_assoc]

/-- From every state of a closed channel in which nothing was cut short or reset and the receiver has not given up
accepting, the network lets the receiver get everything that was sent and then the end, with no more polls than there
are messages and two. -/
theorem channel_drains (lawful : Lawful v q) (spec : ChannelSpec) (calls : List (Call ν))
    (admitted : ∀ e ∈ trace (Link.step q) (.opened q spec) calls, Admitted e.before e.call)
    (uncut : ¬Interrupted (replies q spec calls))
    (closed : (final (Link.step q) (.opened q spec) calls).sending = .closed)
    (alive : ¬v.reset (final (Link.step q) (.opened q spec) calls).stream)
    (wanted : (final (Link.step q) (.opened q spec) calls).phase ≠ .refused) :
    ∃ events, ∃ n ≤ (sent (replies q spec calls)).length + 2,
      .received (.ok none) ∈ replies q spec (calls ++ closing events n) ∧
      delivered (replies q spec (calls ++ closing events n)) = sent (replies q spec calls) := by
  have kept := kept_final lawful spec calls admitted
  obtain ⟨lost,account⟩ := kept.2
  have finished := (account.closed closed).resolve_right alive
  obtain ⟨events,arrived⟩ := lawful.arrives _ finished alive
  have settled : Settled v spec (replies q spec calls ++ List.replicate events.length .idle)
      { final (Link.step q) (.opened q spec) calls with
        stream := events.foldl (fun s event => q.network event s) (final (Link.step q) (.opened q spec) calls).stream } :=
    ⟨kept_network kept lawful events,fun cut => uncut (interrupted_idle cut),arrived,wanted⟩
  obtain ⟨n,bound,eof,all⟩ := settled.drains lawful
  rw [sent_idle] at bound all
  refine ⟨events,n,bound,?_⟩
  rw [replies_closing]
  exact ⟨eof,all⟩

end Books

instance (reply : Reply) : Decidable reply.Cuts := inferInstanceAs (Decidable (_ ∨ _))

instance (history : List Reply) : Decidable (Interrupted history) :=
  inferInstanceAs (Decidable (∃ r ∈ history, r.Cuts))

instance {σ ν : Type} (link : Link σ) (call : Call ν) : Decidable (Admitted link call) := by
  unfold Admitted
  split <;> infer_instance

def clipboardSpec : ChannelSpec := ⟨.clipboard,.reliable,2⟩

/-- Two messages, the second of which is cut short. -/
def cutShort : List (Call Wire.Event) :=
  [.network (.credit 4),.pollSend,.send [1,2,3],.network (.credit 8),.pollSend,.network (.arrive 4),.poll,
    .network (.arrive 5),.poll,.send [4],.dropSend,.close,.network (.arrive 9),.poll,.network .fin,.poll]

theorem channel_faithful_of_cut :
    Faithful Wire.view clipboardSpec (replies Wire.stream clipboardSpec cutShort)
      (final (Link.step Wire.stream) (.opened Wire.stream clipboardSpec) cutShort).stream ∧
    delivered (replies Wire.stream clipboardSpec cutShort) = [[1,2,3]] ∧
    .received (.error .streamClosed) ∈ replies Wire.stream clipboardSpec cutShort :=
  ⟨channel_faithful Wire.lawful _ _ (by decide +kernel),by decide +kernel,by decide +kernel⟩

/-- Two messages of which none has been read. -/
def unread : List (Call Wire.Event) :=
  [.network (.credit 20),.pollSend,.send [1],.network (.arrive 4),.poll,.send [],.close]

theorem channel_drains_of_two :
    sent (replies Wire.stream clipboardSpec unread) = [[1],[]] ∧
    ∃ events, ∃ n ≤ (sent (replies Wire.stream clipboardSpec unread)).length + 2,
      .received (.ok none) ∈ replies Wire.stream clipboardSpec (unread ++ closing events n) ∧
      delivered (replies Wire.stream clipboardSpec (unread ++ closing events n)) =
        sent (replies Wire.stream clipboardSpec unread) := by
  have alive : ¬(final (Link.step Wire.stream) (.opened Wire.stream clipboardSpec) unread).stream.Broken := by
    decide +kernel
  exact ⟨by decide +kernel,channel_drains Wire.lawful _ _ (by decide +kernel) (by decide +kernel) (by decide +kernel)
    alive (by decide +kernel)⟩

end Streamhaul.Quic
