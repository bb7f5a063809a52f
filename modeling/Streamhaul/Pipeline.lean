import Streamhaul.PacketizeDelivery
import Streamhaul.PacketizeDuplicates
import Streamhaul.RawCodec

/-! The host and client pipelines over an unreliable datagram connection: capture, encode, fragment and
send on one side, and receive, reassemble, decode and deliver on the other. -/
namespace Streamhaul.Media

inductive RenderError where
  | sinkFull (capacity : Nat)
  deriving DecidableEq

class ScreenCapturer (α : Type) where
  nextFrame : α → Except MediaError (Option VideoFrame) × α

class VideoEncoder (α : Type) where
  encode : α → VideoFrame → Except MediaError (Option EncodedPacket) × α
  flush : α → Except MediaError (List EncodedPacket) × α

class VideoDecoder (α : Type) where
  decode : α → EncodedPacket → Except MediaError (Option VideoFrame) × α

class FrameSink (α : Type) where
  deliver : α → VideoFrame → Except RenderError Unit × α

instance : VideoEncoder RawEncoder := ⟨fun encoder frame => (RawEncoder.encode frame,encoder),fun encoder => (.ok [],encoder)⟩

instance : VideoDecoder RawDecoder := ⟨fun decoder packet => (RawDecoder.decode packet,decoder)⟩

structure CollectingSink where
  frames : List VideoFrame
  capacity : Nat

def CollectingSink.deliver (sink : CollectingSink) (frame : VideoFrame) : Except RenderError Unit × CollectingSink :=
  if sink.capacity ≤ sink.frames.length then (.error (.sinkFull sink.capacity),sink)
  else (.ok (),{ sink with frames := sink.frames ++ [frame] })

instance : FrameSink CollectingSink := ⟨CollectingSink.deliver⟩

end Streamhaul.Media

namespace Streamhaul.Pipeline

open Media Machine

inductive PipelineError (τ : Type) where
  | transport (e : τ)
  | encode (e : MediaError)
  | decode (e : MediaError)
  | packetize (e : PacketizeError)
  | render (e : RenderError)
  | noDatagramSupport
  | noFrame
  deriving DecidableEq

/-- The host's end of the connection. The path decides what each query for the datagram size is told, and
which sends fail. -/
structure Connection (τ : Type) where
  wire : List Bytes
  queries : Nat
  sizes : Nat → Option Nat
  refuses : Nat → Option τ

namespace Connection

variable {τ : Type}

def maxDatagramSize (conn : Connection τ) : Option Nat × Connection τ :=
  (conn.sizes conn.queries,{ conn with queries := conn.queries + 1 })

def sendDatagramWait (conn : Connection τ) (data : Bytes) : Except τ Unit × Connection τ :=
  match conn.refuses conn.wire.length with
  | some e => (.error e,conn)
  | none => (.ok (),{ conn with wire := conn.wire ++ [data] })

def sendAll (conn : Connection τ) : List Bytes → Except τ Unit × Connection τ
  | [] => (.ok (),conn)
  | data :: rest =>
    match conn.sendDatagramWait data with
    | (.error e,conn) => (.error e,conn)
    | (.ok (),conn) => sendAll conn rest

end Connection

section Host

variable {α β τ : Type} [ScreenCapturer α] [VideoEncoder β]

structure Host (α β τ : Type) where
  conn : Connection τ
  capturer : α
  encoder : β
  seq : UInt16
  results : List UInt64

def Host.start (capturer : α) (encoder : β) (sizes : Nat → Option Nat) (refuses : Nat → Option τ) : Host α β τ :=
  ⟨⟨[],0,sizes,refuses⟩,capturer,encoder,0,[]⟩

def ship (host : Host α β τ) (maxDatagram : Nat) (packet : EncodedPacket) : Except (PipelineError τ) Unit × Host α β τ :=
  match fragment packet host.seq maxDatagram with
  | .error e => (.error (.packetize e),host)
  | .ok datagrams =>
    let numFrags := if datagrams.length ≤ u16Max then UInt16.ofNat datagrams.length else UInt16.ofNat u16Max
    match host.conn.sendAll datagrams with
    | (.error e,conn) => (.error (.transport e),{ host with conn := conn })
    | (.ok (),conn) =>
      (.ok (),{ host with conn := conn, results := host.results ++ [packet.frameId], seq := host.seq + numFrags })

def captureRound (host : Host α β τ) : Except (PipelineError τ) Unit × Host α β τ :=
  match host.conn.maxDatagramSize with
  | (none,conn) => (.error .noDatagramSupport,{ host with conn := conn })
  | (some maxDatagram,conn) =>
    match ScreenCapturer.nextFrame host.capturer with
    | (.error e,capturer) => (.error (.encode e),{ host with conn := conn, capturer := capturer })
    | (.ok none,capturer) => (.error .noFrame,{ host with conn := conn, capturer := capturer })
    | (.ok (some frame),capturer) =>
      match VideoEncoder.encode host.encoder frame with
      | (.error e,encoder) =>
        (.error (.encode e),{ host with conn := conn, capturer := capturer, encoder := encoder })
      | (.ok none,encoder) => (.ok (),{ host with conn := conn, capturer := capturer, encoder := encoder })
      | (.ok (some packet),encoder) =>
        ship { host with conn := conn, capturer := capturer, encoder := encoder } maxDatagram packet

def captureLoop : Nat → Host α β τ → Except (PipelineError τ) Unit × Host α β τ
  | 0, host => (.ok (),host)
  | n + 1, host =>
    match captureRound host with
    | (.error e,host) => (.error e,host)
    | (.ok (),host) => captureLoop n host

/-- The packets an encoder still held. -/
def flushLoop (host : Host α β τ) : List EncodedPacket → Except (PipelineError τ) Unit × Host α β τ
  | [] => (.ok (),host)
  | packet :: rest =>
    match host.conn.maxDatagramSize with
    | (none,conn) => (.error .noDatagramSupport,{ host with conn := conn })
    | (some maxDatagram,conn) =>
      match ship { host with conn := conn } maxDatagram packet with
      | (.error e,host) => (.error e,host)
      | (.ok (),host) => flushLoop host rest

def runHostPipeline (host : Host α β τ) (frameCount : Nat) : Except (PipelineError τ) (List UInt64) × Host α β τ :=
  match captureLoop frameCount host with
  | (.error e,host) => (.error e,host)
  | (.ok (),host) =>
    match VideoEncoder.flush host.encoder with
    | (.error e,encoder) => (.error (.encode e),{ host with encoder := encoder })
    | (.ok tail,encoder) =>
      match flushLoop { host with encoder := encoder } tail with
      | (.error e,host) => (.error e,host)
      | (.ok (),host) => (.ok host.results,host)

end Host

section Client

variable {α β τ : Type} [VideoDecoder α] [FrameSink β]

structure Client (α β : Type) where
  reassembler : Reassembler
  decoder : α
  sink : β
  results : List UInt64

/-- Each entry is what a read of the connection gives; behind the last one the deadline has passed. -/
def runClientPipeline (client : Client α β) (frameCount : Nat) :
    List (Except τ Bytes) → Except (PipelineError τ) (List UInt64) × Client α β
  | [] => (.ok client.results,client)
  | recv :: rest =>
    if client.results.length < frameCount then
      match recv with
      | .error e => (.error (.transport e),client)
      | .ok datagram =>
        match client.reassembler.ingest datagram with
        | (none,reassembler) => runClientPipeline { client with reassembler := reassembler } frameCount rest
        | (some packet,reassembler) =>
          match VideoDecoder.decode client.decoder packet with
          | (.error e,decoder) =>
            (.error (.decode e),{ client with reassembler := reassembler, decoder := decoder })
          | (.ok none,decoder) =>
            runClientPipeline { client with reassembler := reassembler, decoder := decoder } frameCount rest
          | (.ok (some frame),decoder) =>
            match FrameSink.deliver client.sink frame with
            | (.error e,sink) => (.error (.render e),⟨reassembler,decoder,sink,client.results⟩)
            | (.ok (),sink) => runClientPipeline ⟨reassembler,decoder,sink,client.results ++ [frame.frameId]⟩ frameCount rest
    else (.ok client.results,client)

end Client

/-! The frames a host ships. -/

structure Shipment where
  packet : EncodedPacket
  seq : UInt16
  maxDatagram : Nat
  frags : List Bytes
  built : fragment packet seq maxDatagram = .ok frags

section Ships

variable {α τ : Type} [ScreenCapturer α]

/-- The frames of so many pulls, up to the first that fails or gives none. -/
def captured : Nat → α → List Media.VideoFrame
  | 0, _ => []
  | n + 1, capturer =>
    match ScreenCapturer.nextFrame capturer with
    | (.ok (some frame),capturer) => frame :: captured n capturer
    | _ => []

theorem sendAll_spec (conn : Connection τ) (frags : List Bytes) :
    ∃ taken missing, frags = taken ++ missing ∧ (conn.sendAll frags).2.wire = conn.wire ++ taken ∧
      ((conn.sendAll frags).1 = .ok () → missing = []) := by
  induction frags generalizing conn with
  | nil => exact ⟨[],[],rfl,by simp [Connection.sendAll],fun _ => rfl⟩
  | cons frag rest ih =>
    cases refused : conn.refuses conn.wire.length with
    | some e =>
      refine ⟨[],frag :: rest,rfl,?_,?_⟩
      · simp [Connection.sendAll,Connection.sendDatagramWait,refused]
      · simp [Connection.sendAll,Connection.sendDatagramWait,refused]
    | none =>
      obtain ⟨taken,missing,rfl,wire,whole⟩ := ih { conn with wire := conn.wire ++ [frag] }
      refine ⟨frag :: taken,missing,rfl,?_,?_⟩
      · simp [Connection.sendAll,Connection.sendDatagramWait,refused,wire]
      · simpa [Connection.sendAll,Connection.sendDatagramWait,refused] using whole

/-- What a host with a raw encoder has put on the wire: the datagrams of the first frames captured, and
where it did not fail those of all. -/
structure Ships (host : Host α RawEncoder τ) (n : Nat) (ok : Prop) (after : Host α RawEncoder τ)
    (frames : List Media.VideoFrame) (ships : List Shipment) : Prop where
  ordered : frames <+: captured n host.capturer
  packed : ∀ frame ∈ frames, frame.data.length = frame.format.frameLen frame.resolution
  packets : ships.map Shipment.packet = frames.map VideoFrame.rawPacket
  wire : ∃ sent, sent <+: ships.flatMap Shipment.frags ∧ after.conn.wire = host.conn.wire ++ sent
  whole : ok → after.conn.wire = host.conn.wire ++ ships.flatMap Shipment.frags ∧ frames = captured n host.capturer ∧
    frames.length = n ∧ after.results = host.results ++ frames.map fun frame => frame.frameId

theorem ships_nothing {host after : Host α RawEncoder τ} {n : Nat} {ok : Prop} (same : after.conn.wire = host.conn.wire)
    (failed : ¬ok) : Ships host n ok after [] [] where
  ordered := List.nil_prefix
  packed := List.forall_mem_nil _
  packets := rfl
  wire := ⟨[],List.nil_prefix,by simp [same]⟩
  whole done := absurd done failed

/-- A round that captures and encodes a frame. -/
theorem captureRound_frame {host : Host α RawEncoder τ} {maxDatagram : Nat} {frame : Media.VideoFrame} {capturer : α}
    (size : host.conn.sizes host.conn.queries = some maxDatagram)
    (pulled : ScreenCapturer.nextFrame host.capturer = (.ok (some frame),capturer))
    (packed : frame.data.length = frame.format.frameLen frame.resolution) :
    captureRound host = ship { host with
      conn := { host.conn with queries := host.conn.queries + 1 }, capturer := capturer } maxDatagram frame.rawPacket := by
  have encoded := (encode_ok_iff frame frame.rawPacket).mpr ⟨packed,rfl⟩
  simp only [captureRound,Connection.maxDatagramSize,size,pulled,VideoEncoder.encode,encoded]

/-- What becomes of a packet: it can not be cut, a send fails on the way, or all of it is sent. -/
inductive Shipped (host : Host α RawEncoder τ) (packet : EncodedPacket) :
    Except (PipelineError τ) Unit × Host α RawEncoder τ → Prop
  | refused (e : PacketizeError) : Shipped host packet (.error (.packetize e),host)
  | failed (e : τ) (shipment : Shipment) (own : shipment.packet = packet) (conn : Connection τ) (taken missing : List Bytes)
      (split : shipment.frags = taken ++ missing) (wire : conn.wire = host.conn.wire ++ taken) :
      Shipped host packet (.error (.transport e),{ host with conn := conn })
  | done (shipment : Shipment) (own : shipment.packet = packet) (conn : Connection τ) (seq : UInt16)
      (wire : conn.wire = host.conn.wire ++ shipment.frags) :
      Shipped host packet
        (.ok (),{ host with conn := conn, results := host.results ++ [packet.frameId], seq := seq })

omit [ScreenCapturer α] in
theorem ship_shipped (host : Host α RawEncoder τ) (maxDatagram : Nat) (packet : EncodedPacket) :
    Shipped host packet (ship host maxDatagram packet) := by
  unfold ship
  cases built : fragment packet host.seq maxDatagram with
  | error e => exact .refused e
  | ok frags =>
    obtain ⟨taken,missing,split,wire,whole⟩ := sendAll_spec host.conn frags
    rcases outcome : host.conn.sendAll frags with ⟨e | _,conn⟩
    · simp only [outcome] at wire ⊢
      exact .failed e ⟨packet,host.seq,maxDatagram,frags,built⟩ rfl conn taken missing split wire
    · simp only [outcome] at wire whole ⊢
      have all := whole trivial
      subst all
      rw [List.append_nil] at split
      exact .done ⟨packet,host.seq,maxDatagram,frags,built⟩ rfl conn _ (split ▸ wire)

theorem captureLoop_ships (n : Nat) (host : Host α RawEncoder τ) :
    ∃ frames ships, Ships host n ((captureLoop n host).1 = .ok ()) (captureLoop n host).2 frames ships := by
  induction n generalizing host with
  | zero =>
    refine ⟨[],[],List.nil_prefix,List.forall_mem_nil _,rfl,⟨[],List.nil_prefix,by simp [captureLoop]⟩,fun _ => ?_⟩
    simp [captureLoop,captured]
  | succ n ih =>
    -- A round that does not get as far as a packet ends the loop with nothing sent.
    have stopped : ∀ e : PipelineError τ, (captureRound host).1 = .error e → (captureRound host).2.conn.wire = host.conn.wire →
        ∃ frames ships, Ships host (n + 1) ((captureLoop (n + 1) host).1 = .ok ()) (captureLoop (n + 1) host).2
          frames ships := by
      intro e failed same
      rcases round : captureRound host with ⟨outcome,after⟩
      rw [round] at failed same
      cases failed
      refine ⟨[],[],?_⟩
      simp only [captureLoop,round]
      exact ships_nothing same (fun done => nomatch done)
    cases size : host.conn.sizes host.conn.queries with
    | none =>
      exact stopped .noDatagramSupport (by simp only [captureRound,Connection.maxDatagramSize,size])
        (by simp only [captureRound,Connection.maxDatagramSize,size])
    | some maxDatagram =>
      rcases pulled : ScreenCapturer.nextFrame host.capturer with ⟨e | _ | frame,capturer⟩
      · exact stopped (.encode e) (by simp only [captureRound,Connection.maxDatagramSize,size,pulled])
          (by simp only [captureRound,Connection.maxDatagramSize,size,pulled])
      · exact stopped .noFrame (by simp only [captureRound,Connection.maxDatagramSize,size,pulled])
          (by simp only [captureRound,Connection.maxDatagramSize,size,pulled])
      · have next : captured (n + 1) host.capturer = frame :: captured n capturer := by simp only [captured,pulled]
        cases encoded : RawEncoder.encode frame with
        | error e =>
          exact stopped (.encode e)
            (by simp only [captureRound,Connection.maxDatagramSize,size,pulled,VideoEncoder.encode,encoded])
            (by simp only [captureRound,Connection.maxDatagramSize,size,pulled,VideoEncoder.encode,encoded])
        | ok packet =>
          cases packet with
          | none =>
            unfold RawEncoder.encode at encoded
            split at encoded <;> cases encoded
          | some packet =>
            obtain ⟨packed,rfl⟩ := (encode_ok_iff frame packet).mp encoded
            have round := captureRound_frame size pulled packed
            have shipped := ship_shipped { host with
              conn := { host.conn with queries := host.conn.queries + 1 }, capturer := capturer } maxDatagram frame.rawPacket
            rw [← round] at shipped
            generalize outcome : captureRound host = result at shipped
            cases shipped with
            | refused e => exact stopped (.packetize e) (by rw [outcome]) (by rw [outcome])
            | failed e shipment own conn taken missing split wire =>
              refine ⟨[frame],[shipment],?_⟩
              simp only [captureLoop,outcome]
              refine ⟨?_,by simpa using packed,by simp [own],⟨taken,?_,wire⟩,fun done => nomatch done⟩
              · rw [next]
                exact ⟨_,rfl⟩
              · rw [List.flatMap_singleton,split]
                exact ⟨missing,rfl⟩
            | done shipment own conn seq wire =>
              obtain ⟨frames,ships,later⟩ := ih { host with
                conn := conn, capturer := capturer, results := host.results ++ [frame.rawPacket.frameId], seq := seq }
              obtain ⟨sent,beginning,extended⟩ := later.wire
              refine ⟨frame :: frames,shipment :: ships,?_⟩
              simp only [captureLoop,outcome]
              refine ⟨?_,List.forall_mem_cons.mpr ⟨packed,later.packed⟩,by simp [own,later.packets],
                ⟨shipment.frags ++ sent,?_,?_⟩,?_⟩
              · rw [next]
                exact (List.prefix_cons_inj frame).mpr later.ordered
              · rw [List.flatMap_cons]
                exact (List.prefix_append_right_inj shipment.frags).mpr beginning
              · rw [extended,wire,List.append_assoc]
              · intro done
                obtain ⟨all,same,count,ids⟩ := later.whole done
                rw [next]
                refine ⟨?_,congrArg (frame :: ·) same,congrArg (· + 1) count,?_⟩
                · rw [all,wire,List.flatMap_cons,List.append_assoc]
                · rw [ids,List.map_cons,List.append_assoc]
                  rfl

/-- The raw encoder holds no packet back, so nothing is left to flush. -/
theorem runHostPipeline_eq (host : Host α RawEncoder τ) (n : Nat) :
    runHostPipeline host n =
      ((captureLoop n host).1.map fun _ => (captureLoop n host).2.results,(captureLoop n host).2) := by
  unfold runHostPipeline
  rcases captureLoop n host with ⟨e | _,after⟩
  · rfl
  · rfl

theorem runHostPipeline_results {host : Host α RawEncoder τ} {n : Nat} {results : List UInt64}
    (done : (runHostPipeline host n).1 = .ok results) : results = (runHostPipeline host n).2.results := by
  rw [runHostPipeline_eq] at done ⊢
  rcases outcome : captureLoop n host with ⟨e | _,after⟩
  · rw [outcome] at done
    cases done
  · rw [outcome] at done
    exact (Except.ok.inj done).symm

theorem runHostPipeline_ships (host : Host α RawEncoder τ) (n : Nat) :
    ∃ frames ships, Ships host n (∃ results, (runHostPipeline host n).1 = .ok results) (runHostPipeline host n).2
      frames ships := by
  obtain ⟨frames,ships,sent⟩ := captureLoop_ships n host
  refine ⟨frames,ships,sent.ordered,sent.packed,sent.packets,?_,?_⟩
  · rw [runHostPipeline_eq]
    exact sent.wire
  · rw [runHostPipeline_eq]
    rintro ⟨results,done⟩
    apply sent.whole
    rcases outcome : captureLoop n host with ⟨e | _,after⟩
    · rw [outcome] at done
      cases done
    · rfl

end Ships

/-! The packets the reassembler delivers. -/

/-- A packet as it arrives: its id and its time are cut to the width of their fields. -/
def arrival (packet : EncodedPacket) : EncodedPacket :=
  { packet with frameId := packet.frameId % 0x1000000, captureTsUs := packet.captureTsUs % 0x100000000 }

def delivered (r : Reassembler) (feed : List Bytes) : List EncodedPacket :=
  (trace Reassembler.ingest r feed).filterMap Event.response

namespace Shipment

def key (s : Shipment) : Nat := (s.packet.frameId % 0x1000000).toNat

theorem sent (s : Shipment) : ∃ f wire, Reassembler.Sent f wire ∧ s.frags = (List.range f.parts.length).map wire ∧
    f.key = s.key ∧ f.packet = arrival s.packet ∧ 0 < f.parts.length := by
  obtain ⟨packet,seq,maxDatagram,frags,built⟩ := s
  obtain ⟨size,n,rfl,cut,rfl⟩ := fragment_ok packet seq built
  have count : (packetFrame packet size n).parts.length = n := Chunks.length_pieces _ _ _
  refine ⟨packetFrame packet size n,fragmentDatagram packet seq size n,Reassembler.sent_fragments seq cut,?_,
    Reassembler.packetFrame_key packet size n,Reassembler.packetFrame_packet cut,count.symm ▸ cut.nonempty⟩
  rw [count]

theorem fragmentKey_eq {s : Shipment} {datagram : Bytes} (own : datagram ∈ s.frags) :
    Reassembler.fragmentKey datagram = some s.key := by
  obtain ⟨f,wire,sent,whole,key,_⟩ := s.sent
  rw [whole] at own
  obtain ⟨i,inside,rfl⟩ := List.mem_map.mp own
  rw [sent.key (List.mem_range.mp inside),key]

end Shipment

def Drawn (ships : List Shipment) (feed : List Bytes) : Prop := ∀ datagram ∈ feed, ∃ s ∈ ships, datagram ∈ s.frags

section Deliveries

variable {ships : List Shipment} (distinct : (ships.map Shipment.key).Nodup) {feed : List Bytes}

theorem delivered_concat (feed : List Bytes) (datagram : Bytes) :
    delivered .new (feed ++ [datagram]) =
      delivered .new feed ++ ((final Reassembler.ingest .new feed).ingest datagram).1.toList := by
  rw [delivered,trace_append,List.filterMap_append]
  congr 1

include distinct

/-- A datagram delivers nothing, or the packet it belongs to, once all datagrams of it are there. -/
theorem ingest_drawn (drawn : Drawn ships feed) {s : Shipment} (member : s ∈ ships) {datagram : Bytes}
    (own : datagram ∈ s.frags) {packet : EncodedPacket}
    (answer : ((final Reassembler.ingest .new feed).ingest datagram).1 = some packet) :
    packet = arrival s.packet ∧ ∀ other ∈ s.frags, other ∈ feed ++ [datagram] := by
  obtain ⟨f,wire,sent,whole,key,same,_⟩ := s.sent
  have belongs : ∀ other ∈ feed, Reassembler.Belongs f wire other := by
    intro other fed
    obtain ⟨s',member',theirs⟩ := drawn other fed
    by_cases mine : s'.key = s.key
    · obtain rfl := List.inj_on_of_nodup_map distinct member' member mine
      rw [whole] at theirs
      obtain ⟨j,inside,rfl⟩ := List.mem_map.mp theirs
      exact .inl ⟨j,List.mem_range.mp inside,rfl⟩
    · refine .inr ?_
      rw [Shipment.fragmentKey_eq theirs,key]
      exact fun equal => mine (Option.some.inj equal)
  obtain ⟨present,within,holds,fed⟩ := sent.tracks_final feed belongs
  rw [whole] at own
  obtain ⟨i,inside,rfl⟩ := List.mem_map.mp own
  obtain ⟨common,video,carried⟩ := sent i (List.mem_range.mp inside)
  obtain ⟨response,_⟩ := Reassembler.ingest_collects carried holds within
  rw [answer] at response
  split_ifs at response with completes
  have done := Chunks.collect_completes completes
  refine ⟨(Option.some.inj response).trans same,fun other theirs => ?_⟩
  rw [whole] at theirs
  obtain ⟨j,bound,rfl⟩ := List.mem_map.mp theirs
  have there : j ∈ insert i present := done ▸ Finset.mem_range.mpr (List.mem_range.mp bound)
  rcases Finset.mem_insert.mp there with rfl | old
  · exact List.mem_append_right _ List.mem_cons_self
  · exact List.mem_append_left _ (fed j old)

theorem delivered_drawn (drawn : Drawn ships feed) :
    ∀ packet ∈ delivered .new feed, ∃ s ∈ ships, packet = arrival s.packet ∧ ∀ other ∈ s.frags, other ∈ feed := by
  induction feed using List.reverseRecOn with
  | nil => exact List.forall_mem_nil _
  | append_singleton feed datagram ih =>
    have earlier : Drawn ships feed := fun d fed => drawn d (List.mem_append_left _ fed)
    intro packet out
    rw [delivered_concat] at out
    rcases List.mem_append.mp out with before | now
    · obtain ⟨s,member,same,all⟩ := ih earlier packet before
      exact ⟨s,member,same,fun other theirs => List.mem_append_left _ (all other theirs)⟩
    · obtain ⟨s,member,own⟩ := drawn datagram (List.mem_append_right _ List.mem_cons_self)
      obtain ⟨same,all⟩ := ingest_drawn distinct earlier member own (Option.mem_toList.mp now)
      exact ⟨s,member,same,all⟩

theorem delivered_nodup (drawn : Drawn ships feed) (once : feed.Nodup) :
    ((delivered .new feed).map EncodedPacket.frameId).Nodup := by
  induction feed using List.reverseRecOn with
  | nil => exact List.nodup_nil
  | append_singleton feed datagram ih =>
    have earlier : Drawn ships feed := fun d fed => drawn d (List.mem_append_left _ fed)
    rw [List.nodup_append_comm,List.singleton_append,List.nodup_cons] at once
    rw [delivered_concat]
    cases answer : ((final Reassembler.ingest .new feed).ingest datagram).1 with
    | none => simpa using ih earlier once.2
    | some packet =>
      rw [Option.toList_some,List.map_append,List.map_singleton,List.nodup_append_comm,List.singleton_append,List.nodup_cons]
      refine ⟨fun again => ?_,ih earlier once.2⟩
      obtain ⟨s,member,own⟩ := drawn datagram (List.mem_append_right _ List.mem_cons_self)
      obtain ⟨rfl,_⟩ := ingest_drawn distinct earlier member own answer
      obtain ⟨packet',before,same⟩ := List.mem_map.mp again
      obtain ⟨s',member',rfl,all⟩ := delivered_drawn distinct earlier packet' before
      obtain rfl := List.inj_on_of_nodup_map distinct member' member (congrArg UInt64.toNat same)
      exact once.1 (all datagram own)

end Deliveries

section InOrder

/-- The reassembler holds these fragments of one frame, and nothing else. -/
def Only (f : Streamhaul.VideoFrame) (r : Reassembler) (present : Finset Nat) : Prop :=
  f.Holds r present ∧ ∀ k, k ≠ f.key → r.buffers.get? k = none

variable {f : Streamhaul.VideoFrame} {wire : Nat → Bytes}

theorem Only.new (f : Streamhaul.VideoFrame) : Only f .new ∅ := ⟨by rw [VideoFrame.Holds,if_pos rfl]; rfl,fun _ _ => rfl⟩

theorem Only.eq_new {r : Reassembler} (only : Only f r ∅) : r = .new := by
  obtain ⟨buffers⟩ := r
  refine congrArg Reassembler.mk (AssocMap.eq_empty_of_get? fun k => ?_)
  by_cases own : k = f.key
  · rw [own]
    exact only.1
  · exact only.2 k own

theorem Only.uncrowded {r : Reassembler} {present : Finset Nat} (only : Only f r present) {datagram : Bytes}
    (own : Reassembler.fragmentKey datagram = some f.key) : Reassembler.Uncrowded r datagram := by
  intro k found
  obtain rfl := Option.some.inj (found.symm.trans own)
  by_cases none : present = ∅
  · subst none
    rw [only.eq_new]
    exact .inr (by decide)
  · exact .inl ((Reassembler.contains_iff_of_holds only.1).mpr none)

theorem Only.ingest (sent : Reassembler.Sent f wire) {r : Reassembler} {present : Finset Nat} (only : Only f r present)
    (within : present ⊆ Finset.range f.parts.length) {i : Nat} (inside : i < f.parts.length) :
    (r.ingest (wire i)).1 = (if (Chunks.collect f.parts.length present i).1 then some f.packet else none) ∧
      Only f (r.ingest (wire i)).2 (Chunks.collect f.parts.length present i).2 := by
  obtain ⟨common,video,carried⟩ := sent i inside
  obtain ⟨response,holds⟩ := Reassembler.ingest_collects carried only.1 within
  refine ⟨response,holds,fun k other => ?_⟩
  have theirs : Reassembler.fragmentKey (wire i) ≠ some k := by
    rw [sent.key inside]
    exact fun same => other (Option.some.inj same).symm
  rw [Reassembler.get?_ingest_uncrowded theirs (only.uncrowded (sent.key inside))]
  exact only.2 k other

theorem inOrder_part (sent : Reassembler.Sent f wire) {m : Nat} (part : m < f.parts.length) :
    delivered .new ((List.range m).map wire) = [] ∧
      Only f (final Reassembler.ingest .new ((List.range m).map wire)) (Finset.range m) := by
  induction m with
  | zero => exact ⟨rfl,Only.new f⟩
  | succ m ih =>
    obtain ⟨silent,only⟩ := ih (by omega)
    obtain ⟨response,next⟩ := only.ingest sent (Finset.range_mono (by omega)) (show m < f.parts.length by omega)
    have later : f.parts.length - 1 ∉ insert m (Finset.range m) := by
      simp only [Finset.mem_insert,Finset.mem_range]
      omega
    rw [Chunks.collect_missing (by omega) later] at response next
    rw [List.range_succ,List.map_append,List.map_singleton,delivered_concat,silent,response,final_append,
      Finset.range_add_one]
    exact ⟨rfl,next⟩

theorem delivered_shipment (s : Shipment) :
    delivered .new s.frags = [arrival s.packet] ∧ final Reassembler.ingest .new s.frags = .new := by
  obtain ⟨f,wire,sent,whole,_,same,nonempty⟩ := s.sent
  obtain ⟨last,count⟩ : ∃ last, f.parts.length = last + 1 := ⟨f.parts.length - 1,by omega⟩
  obtain ⟨silent,only⟩ := inOrder_part sent (show last < f.parts.length by omega)
  obtain ⟨response,next⟩ := only.ingest sent (Finset.range_mono (by omega)) (show last < f.parts.length by omega)
  have done : insert last (Finset.range last) = Finset.range f.parts.length := by rw [count,Finset.range_add_one]
  rw [Chunks.collect_last Finset.notMem_range_self done] at response next
  rw [whole,count,List.range_succ,List.map_append,List.map_singleton,delivered_concat,silent,response,final_append,same]
  exact ⟨rfl,next.eq_new⟩

theorem delivered_inOrder (ships : List Shipment) :
    delivered .new (ships.flatMap Shipment.frags) = ships.map fun s => arrival s.packet := by
  induction ships with
  | nil => rfl
  | cons s rest ih =>
    obtain ⟨out,back⟩ := delivered_shipment s
    rw [List.flatMap_cons,delivered,trace_append,List.filterMap_append,back,List.map_cons]
    exact congrArg₂ (· ++ ·) out ih

end InOrder

/-! The client. -/

section Present

variable {τ : Type}

def datagrams (reads : List (Except τ Bytes)) : List Bytes := reads.filterMap Except.toOption

def decoded (packets : List EncodedPacket) : List Media.VideoFrame :=
  packets.filterMap fun packet => (RawDecoder.decode packet).toOption.join

/-- What a client has presented: frames of the packets delivered, in their order, and all of them where
nothing stopped it. -/
structure Presents (client : Client RawDecoder CollectingSink) (frameCount : Nat) (reads : List (Except τ Bytes))
    (result : Except (PipelineError τ) (List UInt64)) (after : Client RawDecoder CollectingSink)
    (frames : List Media.VideoFrame) : Prop where
  ordered : frames <+: decoded (delivered client.reassembler (datagrams reads))
  sink : after.sink.frames = client.sink.frames ++ frames
  results : after.results = client.results ++ frames.map fun frame => frame.frameId
  decodes : ∀ e, result ≠ .error (.decode e)
  whole : (∀ read ∈ reads, ∃ datagram, read = .ok datagram) →
    client.sink.frames.length + (decoded (delivered client.reassembler (datagrams reads))).length ≤ client.sink.capacity →
    client.results.length + (decoded (delivered client.reassembler (datagrams reads))).length ≤ frameCount →
    frames = decoded (delivered client.reassembler (datagrams reads)) ∧ result = .ok after.results

theorem delivered_cons (r : Reassembler) (datagram : Bytes) (rest : List Bytes) :
    delivered r (datagram :: rest) = (r.ingest datagram).1.toList ++ delivered (r.ingest datagram).2 rest :=
  filterMap_trace_cons _ _ _ _ _

theorem runClientPipeline_presents (reads : List (Except τ Bytes)) (client : Client RawDecoder CollectingSink)
    (frameCount : Nat)
    (good : ∀ packet ∈ delivered client.reassembler (datagrams reads), ∃ frame, RawDecoder.decode packet = .ok (some frame)) :
    ∃ frames, Presents client frameCount reads (runClientPipeline client frameCount reads).1
      (runClientPipeline client frameCount reads).2 frames := by
  induction reads generalizing client with
  | nil => exact ⟨[],List.nil_prefix,by simp [runClientPipeline],by simp [runClientPipeline],
      fun e => by simp [runClientPipeline],
      fun _ _ _ => ⟨rfl,rfl⟩⟩
  | cons read rest ih =>
    by_cases more : client.results.length < frameCount
    · cases read with
      | error e =>
        refine ⟨[],?_⟩
        simp only [runClientPipeline,more,if_true]
        refine ⟨List.nil_prefix,by simp,by simp,fun e => by simp,fun ok => ?_⟩
        obtain ⟨datagram,broken⟩ := ok _ List.mem_cons_self
        cases broken
      | ok datagram =>
        have first : datagrams (.ok datagram :: rest) = datagram :: datagrams rest := rfl
        rw [first,delivered_cons] at good
        rcases answer : client.reassembler.ingest datagram with ⟨_ | packet,reassembler⟩
        · rw [answer] at good
          obtain ⟨frames,later⟩ := ih { client with reassembler := reassembler } good
          have out : delivered client.reassembler (datagrams (.ok datagram :: rest)) =
              delivered reassembler (datagrams rest) := by
            rw [first,delivered_cons,answer]
            rfl
          refine ⟨frames,?_⟩
          simp only [runClientPipeline,more,answer,if_true]
          refine ⟨out ▸ later.ordered,later.sink,later.results,later.decodes,fun ok => ?_⟩
          rw [out]
          exact later.whole (List.forall_mem_cons.mp ok).2
        · rw [answer] at good
          obtain ⟨⟨frame,found⟩,good⟩ := List.forall_mem_cons.mp good
          have out : decoded (delivered client.reassembler (datagrams (.ok datagram :: rest))) =
              frame :: decoded (delivered reassembler (datagrams rest)) := by
            rw [first,delivered_cons,answer,decoded,decoded,Option.toList_some,List.singleton_append]
            exact List.filterMap_cons_some (by rw [found]; rfl)
          by_cases full : client.sink.capacity ≤ client.sink.frames.length
          · refine ⟨[],?_⟩
            simp only [runClientPipeline,more,answer,if_true,VideoDecoder.decode,found,FrameSink.deliver,
              CollectingSink.deliver,full]
            refine ⟨List.nil_prefix,by simp,by simp,fun e => by simp,fun _ room => ?_⟩
            rw [out,List.length_cons] at room
            omega
          · obtain ⟨frames,later⟩ := ih ⟨reassembler,client.decoder,
              { client.sink with frames := client.sink.frames ++ [frame] },
              client.results ++ [frame.frameId]⟩ good
            refine ⟨frame :: frames,?_⟩
            simp only [runClientPipeline,more,answer,if_true,if_false,VideoDecoder.decode,found,FrameSink.deliver,
              CollectingSink.deliver,full]
            refine ⟨?_,?_,?_,later.decodes,fun ok room enough => ?_⟩
            · rw [out]
              exact (List.prefix_cons_inj frame).mpr later.ordered
            · rw [later.sink,List.append_assoc,List.singleton_append]
            · rw [later.results,List.append_assoc,List.singleton_append,List.map_cons]
            · rw [out,List.length_cons] at room enough
              obtain ⟨all,result⟩ := later.whole (List.forall_mem_cons.mp ok).2
                (by simp only [List.length_append,List.length_singleton]; omega)
                (by simp only [List.length_append,List.length_singleton]; omega)
              rw [out]
              exact ⟨congrArg (frame :: ·) all,result⟩
    · refine ⟨[],?_⟩
      simp only [runClientPipeline,more,if_false]
      refine ⟨List.nil_prefix,by simp,by simp,fun e => by simp,fun _ _ enough => ⟨?_,rfl⟩⟩
      exact (List.length_eq_zero_iff.mp (by omega)).symm

end Present

/-- A frame as it is presented. -/
def trimmed (frame : Media.VideoFrame) : Media.VideoFrame :=
  { frame with frameId := frame.frameId % 0x1000000, captureTsUs := frame.captureTsUs % 0x100000000 }

section EndToEnd

variable {α τ ω : Type} [ScreenCapturer α]

def hosted (capturer : α) (frameCount : Nat) (sizes : Nat → Option Nat) (refuses : Nat → Option τ) :
    Except (PipelineError τ) (List UInt64) × Host α RawEncoder τ :=
  runHostPipeline (.start capturer ⟨⟩ sizes refuses) frameCount

def presented (wanted capacity : Nat) (reads : List (Except ω Bytes)) :
    Except (PipelineError ω) (List UInt64) × Client RawDecoder CollectingSink :=
  runClientPipeline ⟨.new,⟨⟩,⟨[],capacity⟩,[]⟩ wanted reads

theorem decode_arrival {frame : Media.VideoFrame} (sound : frame.Sound) :
    RawDecoder.decode (arrival frame.rawPacket) = .ok (some (trimmed frame)) := decode_rawPacket sound _ _

theorem keys_distinct {frames : List Media.VideoFrame} {ships : List Shipment}
    (packets : ships.map Shipment.packet = frames.map Media.VideoFrame.rawPacket)
    (ids : (frames.map fun frame => frame.frameId % 0x1000000).Nodup) : (ships.map Shipment.key).Nodup := by
  have same : ships.map Shipment.key = (frames.map fun frame => frame.frameId % 0x1000000).map UInt64.toNat := by
    have mapped := congrArg (List.map fun packet : EncodedPacket => (packet.frameId % 0x1000000).toNat) packets
    rw [List.map_map,List.map_map] at mapped
    rw [List.map_map]
    exact mapped
  rw [same]
  exact ids.map fun _ _ => UInt64.toNat_inj.mp

theorem decoded_ids (packets : List EncodedPacket) :
    ((decoded packets).map fun frame => frame.frameId).Sublist (packets.map EncodedPacket.frameId) := by
  induction packets with
  | nil => exact List.nil_sublist _
  | cons packet rest ih =>
    rw [decoded,List.filterMap_cons]
    split
    · exact ih.trans (List.sublist_cons_self _ _)
    · next frame found =>
      have ok : RawDecoder.decode packet = .ok (some frame) := by
        cases outcome : RawDecoder.decode packet with
        | error e =>
          rw [outcome] at found
          cases found
        | ok answer =>
          rw [outcome] at found
          exact congrArg Except.ok found
      rw [List.map_cons,List.map_cons,(decode_ok ok).2.2.2.1]
      exact ih.cons_cons _

section Shipped

variable {frames : List Media.VideoFrame} {ships : List Shipment}
  (packets : ships.map Shipment.packet = frames.map Media.VideoFrame.rawPacket) (sound : ∀ frame ∈ frames, frame.Sound)

include packets

theorem source_of {s : Shipment} (member : s ∈ ships) : ∃ frame ∈ frames, frame.rawPacket = s.packet := by
  have there : s.packet ∈ frames.map Media.VideoFrame.rawPacket := packets ▸ List.mem_map_of_mem member
  exact List.mem_map.mp there

include sound

theorem decoded_arrivals : decoded (ships.map fun s => arrival s.packet) = frames.map trimmed := by
  have mapped := congrArg (List.map arrival) packets
  rw [List.map_map,List.map_map] at mapped
  have same : (ships.map fun s => arrival s.packet) = frames.map (arrival ∘ Media.VideoFrame.rawPacket) := mapped
  rw [same,decoded,List.filterMap_map,← List.filterMap_eq_map]
  refine List.filterMap_congr fun frame member => ?_
  simp only [Function.comp_apply,decode_arrival (sound frame member)]
  rfl

end Shipped

/-- Frames of non-zero size with ids that 24 bits tell apart. Whatever part of their datagrams reaches the
client, in any order and with repetitions: it never fails to decode, every frame it presents is one that the
host has captured, with every pixel and with its id and timestamp cut to the width of their fields, and where
no datagram arrives twice no frame is presented twice. -/
theorem raw_pipeline_exact (capturer : α) (frameCount : Nat) (sizes : Nat → Option Nat) (refuses : Nat → Option τ)
    (visible : ∀ frame ∈ captured frameCount capturer, frame.resolution.width ≠ 0 ∧ frame.resolution.height ≠ 0)
    (ids : ((captured frameCount capturer).map fun frame => frame.frameId % 0x1000000).Nodup)
    (wanted capacity : Nat) (reads : List (Except ω Bytes))
    (drawn : ∀ datagram ∈ datagrams reads, datagram ∈ (hosted capturer frameCount sizes refuses).2.conn.wire) :
    (∀ e, (presented wanted capacity reads).1 ≠ .error (.decode e)) ∧
    (∀ frame ∈ (presented wanted capacity reads).2.sink.frames,
      ∃ source ∈ captured frameCount capturer, frame = trimmed source) ∧
    ((datagrams reads).Nodup → ((presented wanted capacity reads).2.sink.frames.map fun frame => frame.frameId).Nodup) := by
  obtain ⟨frames,ships,shipped⟩ := runHostPipeline_ships (.start capturer ⟨⟩ sizes refuses) frameCount
  have inside : ∀ frame ∈ frames, frame ∈ captured frameCount capturer := shipped.ordered.subset
  have sound : ∀ frame ∈ frames, frame.Sound := fun frame member =>
    ⟨shipped.packed frame member,(visible frame (inside frame member)).1,(visible frame (inside frame member)).2⟩
  have distinct := keys_distinct shipped.packets (ids.sublist (shipped.ordered.sublist.map _))
  have own : Drawn ships (datagrams reads) := by
    intro datagram read
    obtain ⟨sent,beginning,wire⟩ := shipped.wire
    have there := drawn datagram read
    rw [hosted,wire] at there
    exact List.mem_flatMap.mp (beginning.subset there)
  have origin : ∀ packet ∈ delivered .new (datagrams reads), ∃ frame ∈ frames, packet = arrival frame.rawPacket := by
    intro packet out
    obtain ⟨s,member,rfl,_⟩ := delivered_drawn distinct own packet out
    obtain ⟨frame,captured,same⟩ := source_of shipped.packets member
    exact ⟨frame,captured,by rw [same]⟩
  have good : ∀ packet ∈ delivered .new (datagrams reads), ∃ frame, RawDecoder.decode packet = .ok (some frame) := by
    intro packet out
    obtain ⟨frame,member,rfl⟩ := origin packet out
    exact ⟨_,decode_arrival (sound frame member)⟩
  obtain ⟨shown,presents⟩ := runClientPipeline_presents reads ⟨.new,⟨⟩,⟨[],capacity⟩,[]⟩ wanted good
  have sink : (presented wanted capacity reads).2.sink.frames = shown := presents.sink
  refine ⟨presents.decodes,fun frame member => ?_,fun once => ?_⟩
  · rw [sink] at member
    obtain ⟨packet,out,found⟩ := List.mem_filterMap.mp (presents.ordered.subset member)
    obtain ⟨source,captured,rfl⟩ := origin packet out
    rw [decode_arrival (sound source captured)] at found
    exact ⟨source,inside source captured,(Option.some.inj found).symm⟩
  · rw [sink]
    exact (delivered_nodup distinct own once).sublist ((presents.ordered.sublist.map _).trans (decoded_ids _))

/-- A host that succeeds with frames of non-zero size, and a client that gets every datagram in order and has
room: the client presents every frame captured, in order, with id and timestamp cut, and reports the host's
ids modulo 2^24. -/
theorem raw_pipeline_lossless (capturer : α) (frameCount : Nat) (sizes : Nat → Option Nat) (refuses : Nat → Option τ)
    (visible : ∀ frame ∈ captured frameCount capturer, frame.resolution.width ≠ 0 ∧ frame.resolution.height ≠ 0)
    (results : List UInt64) (done : (hosted capturer frameCount sizes refuses).1 = .ok results) (capacity : Nat)
    (room : frameCount ≤ capacity) (reads : List (Except ω Bytes))
    (inOrder : reads = (hosted capturer frameCount sizes refuses).2.conn.wire.map .ok) :
    (captured frameCount capturer).length = frameCount ∧
    results = (captured frameCount capturer).map (fun frame => frame.frameId) ∧
    (presented frameCount capacity reads).1 = .ok (results.map fun id => id % 0x1000000) ∧
    (presented frameCount capacity reads).2.sink.frames = (captured frameCount capturer).map trimmed := by
  obtain ⟨frames,ships,shipped⟩ := runHostPipeline_ships (.start capturer ⟨⟩ sizes refuses) frameCount
  obtain ⟨wire,all,count,ids⟩ := shipped.whole ⟨results,done⟩
  have frames_eq : captured frameCount capturer = frames := all.symm
  rw [frames_eq] at visible ⊢
  have sound : ∀ frame ∈ frames, frame.Sound := fun frame member =>
    ⟨shipped.packed frame member,(visible frame member).1,(visible frame member).2⟩
  have read : datagrams reads = ships.flatMap Shipment.frags := by
    rw [inOrder,hosted,wire,datagrams,List.filterMap_map]
    exact List.filterMap_some
  have out : delivered .new (datagrams reads) = ships.map fun s => arrival s.packet := by
    rw [read,delivered_inOrder]
  have shown : decoded (delivered .new (datagrams reads)) = frames.map trimmed := by
    rw [out,decoded_arrivals shipped.packets sound]
  have good : ∀ packet ∈ delivered .new (datagrams reads), ∃ frame, RawDecoder.decode packet = .ok (some frame) := by
    rw [out]
    refine List.forall_mem_map.mpr fun s member => ?_
    obtain ⟨frame,source,same⟩ := source_of shipped.packets member
    exact ⟨_,same ▸ decode_arrival (sound frame source)⟩
  have reported : results = frames.map fun frame => frame.frameId := by
    rw [runHostPipeline_results done,ids]
    rfl
  obtain ⟨seen,presents⟩ := runClientPipeline_presents reads ⟨.new,⟨⟩,⟨[],capacity⟩,[]⟩ frameCount good
  have arrived : ∀ read ∈ reads, ∃ datagram, read = .ok datagram := by
    rw [inOrder]
    exact List.forall_mem_map.mpr fun datagram _ => ⟨datagram,rfl⟩
  have length : (decoded (delivered .new (datagrams reads))).length = frameCount := by
    rw [shown,List.length_map,count]
  obtain ⟨every,answer⟩ := presents.whole arrived (by simp only [length,List.length_nil]; omega)
    (by simp only [length,List.length_nil]; omega)
  have sink : (presented frameCount capacity reads).2.sink.frames = seen := presents.sink
  have told : (presented frameCount capacity reads).1 = .ok (seen.map fun frame => frame.frameId) := by
    rw [presented,answer,presents.results]
    rfl
  refine ⟨count,reported,?_,?_⟩
  · rw [told,every,shown,reported,List.map_map,List.map_map]
    rfl
  · rw [sink,every,shown]

end EndToEnd

/-- Three grey frames of one pixel, whose ids wrap in the header field. -/
def flicker : List Media.VideoFrame :=
  [⟨[1,1,1,255],.bgra8,⟨1,1⟩,0xFFFFFF,0⟩,⟨[2,2,2,255],.bgra8,⟨1,1⟩,0x1000000,33333⟩,⟨[3,3,3,255],.bgra8,⟨1,1⟩,0x1000001,66666⟩]

instance : ScreenCapturer (List Media.VideoFrame) where
  nextFrame
    | [] => (.ok none,[])
    | frame :: rest => (.ok (some frame),rest)

/-- Datagrams of eight payload bytes, over a path that takes every one. -/
def flickered : Except (PipelineError Unit) (List UInt64) × Host (List Media.VideoFrame) RawEncoder Unit :=
  hosted flicker 3 (fun _ => some 29) (fun _ => none)

theorem raw_pipeline_lossless_flicker :
    (presented 3 3 (flickered.2.conn.wire.map (.ok : Bytes → Except Unit Bytes))).2.sink.frames = flicker.map trimmed :=
  (raw_pipeline_lossless flicker 3 (fun _ => some 29) (fun _ => (none : Option Unit)) (by decide)
    [0xFFFFFF,0x1000000,0x1000001] (by decide +kernel) 3 le_rfl _ rfl).2.2.2

/-- The datagrams the other way round, without the first one. -/
def shuffledReads : List (Except Unit Bytes) := (flickered.2.conn.wire.drop 1).reverse.map .ok

theorem raw_pipeline_exact_flicker :
    (presented 3 3 shuffledReads).2.sink.frames = [⟨[3,3,3,255],.bgra8,⟨1,1⟩,1,66666⟩,⟨[2,2,2,255],.bgra8,⟨1,1⟩,0,33333⟩] ∧
    ∀ frame ∈ (presented 3 3 shuffledReads).2.sink.frames, ∃ source ∈ captured 3 flicker, frame = trimmed source :=
  ⟨by decide +kernel,(raw_pipeline_exact flicker 3 (fun _ => some 29) (fun _ => (none : Option Unit)) (by decide)
    (by decide +kernel)
    3 3 shuffledReads (by decide +kernel)).2.1⟩

end Streamhaul.Pipeline
