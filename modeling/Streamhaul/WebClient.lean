import Streamhaul.Machine
import Streamhaul.SdpPin

/-! The browser client around one peer connection. The browser is outside: every call
comes with the answers the browser would give during it, and every call reports the
operations it asked of the browser. An exclusive borrow spans each call, so calls do
not interleave. -/
namespace Streamhaul

inductive SdpType where
  | offer
  | answer
  deriving DecidableEq

inductive IceConnectionState where
  | new
  | checking
  | connected
  | completed
  | failed
  | disconnected
  | closed
  | unmapped
  deriving DecidableEq

def IceConnectionState.canonical : IceConnectionState → String
  | .new => "new"
  | .checking => "checking"
  | .connected => "connected"
  | .completed => "completed"
  | .failed => "failed"
  | .disconnected => "disconnected"
  | .closed => "closed"
  | .unmapped => "unknown"

inductive BrowserOp where
  | createDataChannel (label : String)
  | createOffer
  | createAnswer
  | setLocalDescription (sdp : Text)
  | setRemoteDescription (kind : SdpType) (sdp : Text)
  | addIceCandidate (candidate : Text) (sdpMid : String) (sdpMLineIndex : Nat)
  | send (label : String) (payload : Bytes)
  | setOnMessage (label : String)
  | setOnDataChannel
  | setOnIceCandidate
  | close
  deriving DecidableEq

/-- What the browser answers while one call runs. -/
structure Browser where
  createOffer : Except JsError Text
  createAnswer : Except JsError Text
  setLocalDescription : Except JsError Unit
  setRemoteDescription : Except JsError Unit
  localDescription : Option Text
  newIceCandidate : Except JsError Unit
  addIceCandidate : Except JsError Unit
  send : Except JsError Unit
  iceConnectionState : IceConnectionState

inductive WebReply where
  | done
  | sdp (text : Text)
  | fingerprint (bytes : Bytes)
  | iceState (name : String)
  deriving DecidableEq

structure WebResponse where
  result : Except JsError WebReply
  operations : List BrowserOp

structure WebClient where
  videoChannel : Option String
  inputChannel : Option String
  clipboardChannel : Option String
  dtlsPin : Option Bytes
  deriving DecidableEq

inductive WebCall where
  | setDtlsPin (pin : Bytes)
  | localDtlsFingerprint
  | createOffer
  | connectAsOfferer (remoteSdpAnswer : Text)
  | connectAsAnswerer (remoteSdpOffer : Text)
  | addIceCandidate (candidate : Text)
  | sendFrame (frame : Bytes)
  | sendInput (event : Bytes)
  | sendClipboard (update : Bytes)
  | onFrame
  | onClipboard
  | onDataChannel
  | onIceCandidate
  | iceConnectionState
  | close
  deriving DecidableEq

namespace WebClient

def new : WebClient := ⟨none,none,none,none⟩

def setDtlsPin (client : WebClient) (pin : Bytes) : Except JsError Unit × WebClient :=
  if pin.length ≠ sha256FpLen then (.error "DTLS pin must be exactly 32 bytes",client)
  else (.ok (),{ client with dtlsPin := some pin })

def localDtlsFingerprint (browser : Browser) : Except JsError Bytes :=
  match browser.localDescription with
  | none => .error "no local description set yet"
  | some sdp => parseSdpFingerprintInner sdp

def localSdp (browser : Browser) : Except JsError WebReply :=
  match browser.localDescription with
  | none => .error "no local description after setLocalDescription"
  | some sdp => .ok (.sdp sdp)

/-- An absent channel is created under its label, a present one is kept. -/
def openChannel (channel : Option String) (label : String) : Option String × List BrowserOp :=
  match channel with
  | some open' => (some open',[])
  | none => (some label,[.createDataChannel label])

def createOffer (client : WebClient) (browser : Browser) : WebResponse × WebClient :=
  let (video,videoOps) := openChannel client.videoChannel "0:128:1"
  let (input,inputOps) := openChannel client.inputChannel "2:0:1"
  let (clipboard,clipboardOps) := openChannel client.clipboardChannel "3:2:1"
  let client := { client with videoChannel := video, inputChannel := input, clipboardChannel := clipboard }
  let operations := videoOps ++ inputOps ++ clipboardOps ++ [.createOffer]
  match browser.createOffer with
  | .error e => (⟨.error e,operations⟩,client)
  | .ok offer =>
    let operations := operations ++ [.setLocalDescription offer]
    match browser.setLocalDescription with
    | .error e => (⟨.error e,operations⟩,client)
    | .ok () => (⟨localSdp browser,operations⟩,client)

/-- Applies the remote offer without looking at the pin; only reached behind the gate. -/
def createAnswer (browser : Browser) (remoteOffer : Text) : WebResponse :=
  let operations := [.setRemoteDescription .offer remoteOffer]
  match browser.setRemoteDescription with
  | .error e => ⟨.error e,operations⟩
  | .ok () =>
    let operations := operations ++ [.createAnswer]
    match browser.createAnswer with
    | .error e => ⟨.error e,operations⟩
    | .ok answer =>
      let operations := operations ++ [.setLocalDescription answer]
      match browser.setLocalDescription with
      | .error e => ⟨.error e,operations⟩
      | .ok () => ⟨localSdp browser,operations⟩

def guardRemoteSdp (client : WebClient) (remoteSdp : Text) : Except JsError Unit :=
  match client.dtlsPin with
  | none => .error ("DTLS pin not set: Noise handshake must complete and set_dtls_pin must be called " ++
      "before applying remote SDP")
  | some pin => verifySdpFingerprintPin remoteSdp pin

def connectAsOfferer (client : WebClient) (browser : Browser) (remoteSdpAnswer : Text) : WebResponse :=
  match client.guardRemoteSdp remoteSdpAnswer with
  | .error e => ⟨.error e,[]⟩
  | .ok () =>
    ⟨browser.setRemoteDescription.map (fun _ => .done),[.setRemoteDescription .answer remoteSdpAnswer]⟩

def connectAsAnswerer (client : WebClient) (browser : Browser) (remoteSdpOffer : Text) : WebResponse :=
  match client.guardRemoteSdp remoteSdpOffer with
  | .error e => ⟨.error e,[]⟩
  | .ok () => createAnswer browser remoteSdpOffer

def addIceCandidate (browser : Browser) (candidate : Text) : WebResponse :=
  if candidate = [] then ⟨.ok .done,[]⟩
  else match browser.newIceCandidate with
    | .error e => ⟨.error e,[]⟩
    | .ok () => ⟨browser.addIceCandidate.map (fun _ => .done),[.addIceCandidate candidate "0" 0]⟩

def sendOn (channel : Option String) (missing : JsError) (browser : Browser) (payload : Bytes) :
    WebResponse :=
  match channel with
  | none => ⟨.error missing,[]⟩
  | some label => ⟨browser.send.map (fun _ => .done),[.send label payload]⟩

def sendFrame (client : WebClient) : Browser → Bytes → WebResponse :=
  sendOn client.videoChannel "no video DataChannel open"

def sendInput (client : WebClient) : Browser → Bytes → WebResponse :=
  sendOn client.inputChannel "no input DataChannel open"

def sendClipboard (client : WebClient) : Browser → Bytes → WebResponse :=
  sendOn client.clipboardChannel "no clipboard DataChannel open"

def listenOn (channel : Option String) (missing : JsError) : WebResponse :=
  match channel with
  | none => ⟨.error missing,[]⟩
  | some label => ⟨.ok .done,[.setOnMessage label]⟩

def onFrame (client : WebClient) : WebResponse :=
  listenOn client.videoChannel "no video DataChannel to attach on_frame to"

def onClipboard (client : WebClient) : WebResponse :=
  listenOn client.clipboardChannel "no clipboard DataChannel to attach on_clipboard to"

def close (client : WebClient) : WebResponse × WebClient :=
  (⟨.ok .done,[.close]⟩,
    { client with videoChannel := none, inputChannel := none, clipboardChannel := none })

def step (client : WebClient) : Browser × WebCall → WebResponse × WebClient
  | (_,.setDtlsPin pin) =>
    match client.setDtlsPin pin with
    | (result,client) => (⟨result.map (fun _ => .done),[]⟩,client)
  | (browser,.localDtlsFingerprint) => (⟨(localDtlsFingerprint browser).map .fingerprint,[]⟩,client)
  | (browser,.createOffer) => client.createOffer browser
  | (browser,.connectAsOfferer sdp) => (client.connectAsOfferer browser sdp,client)
  | (browser,.connectAsAnswerer sdp) => (client.connectAsAnswerer browser sdp,client)
  | (browser,.addIceCandidate candidate) => (addIceCandidate browser candidate,client)
  | (browser,.sendFrame frame) => (client.sendFrame browser frame,client)
  | (browser,.sendInput event) => (client.sendInput browser event,client)
  | (browser,.sendClipboard update) => (client.sendClipboard browser update,client)
  | (_,.onFrame) => (client.onFrame,client)
  | (_,.onClipboard) => (client.onClipboard,client)
  | (_,.onDataChannel) => (⟨.ok .done,[.setOnDataChannel]⟩,client)
  | (_,.onIceCandidate) => (⟨.ok .done,[.setOnIceCandidate]⟩,client)
  | (browser,.iceConnectionState) => (⟨.ok (.iceState browser.iceConnectionState.canonical),[]⟩,client)
  | (_,.close) => client.close

def storedPin : Browser × WebCall → Option Bytes
  | (_,.setDtlsPin pin) => if pin.length = sha256FpLen then some pin else none
  | _ => none

theorem storedPin_length {call : Browser × WebCall} {pin : Bytes} (stored : storedPin call = some pin) :
    pin.length = sha256FpLen := by
  unfold storedPin at stored
  split at stored
  · split_ifs at stored with width
    cases stored
    exact width
  · cases stored

theorem step_dtlsPin (client : WebClient) (call : Browser × WebCall) :
    (client.step call).2.dtlsPin = (storedPin call).or client.dtlsPin := by
  obtain ⟨browser,call⟩ := call
  cases call with
  | setDtlsPin pin =>
    by_cases width : pin.length = sha256FpLen <;> simp [step,setDtlsPin,storedPin,width]
  | createOffer =>
    simp only [step,createOffer,storedPin,Option.none_or]
    split
    · rfl
    · split <;> rfl
  | _ => rfl

theorem final_dtlsPin (client : WebClient) (calls : List (Browser × WebCall)) :
    (Machine.final step client calls).dtlsPin = (calls.filterMap storedPin).getLast?.or client.dtlsPin := by
  induction calls generalizing client with
  | nil => rfl
  | cons call rest ih =>
    rw [Machine.final,ih,step_dtlsPin]
    cases stored : storedPin call with
    | none => simp [stored]
    | some pin =>
      rw [List.filterMap_cons_some stored,List.getLast?_cons]
      cases (rest.filterMap storedPin).getLast? <;> rfl

/-- A remote description is applied by the two connect calls only, and only behind the gate. -/
theorem applies_iff {client : WebClient} {browser : Browser} {call : WebCall} {kind : SdpType} {sdp : Text} :
    .setRemoteDescription kind sdp ∈ (client.step (browser,call)).1.operations ↔
      client.guardRemoteSdp sdp = .ok () ∧
        (kind = .answer ∧ call = .connectAsOfferer sdp ∨ kind = .offer ∧ call = .connectAsAnswerer sdp) := by
  cases call with
  | setDtlsPin pin => by_cases width : pin.length = sha256FpLen <;> simp [step,setDtlsPin,width]
  | connectAsOfferer remote =>
    cases gate : client.guardRemoteSdp remote <;> simp [step,connectAsOfferer,gate] <;> grind
  | connectAsAnswerer remote =>
    cases gate : client.guardRemoteSdp remote with
    | error e => simp [step,connectAsAnswerer,gate]; grind
    | ok =>
      simp only [step,connectAsAnswerer,gate,createAnswer]
      repeat' split
      all_goals simp
      all_goals grind
  | createOffer =>
    simp only [step,createOffer,openChannel]
    repeat' split
    all_goals simp
  | addIceCandidate candidate =>
    simp only [step,addIceCandidate]
    repeat' split
    all_goals simp
  | sendFrame | sendInput | sendClipboard =>
    simp only [step,sendFrame,sendInput,sendClipboard,sendOn]
    split <;> simp
  | onFrame | onClipboard =>
    simp only [step,onFrame,onClipboard,listenOn]
    split <;> simp
  | localDtlsFingerprint | onDataChannel | onIceCandidate | iceConnectionState | close =>
    simp [step,close]

theorem guardRemoteSdp_ok_iff {client : WebClient} {sdp : Text} :
    client.guardRemoteSdp sdp = .ok () ↔
      ∃ pin, client.dtlsPin = some pin ∧ verifySdpFingerprintPin sdp pin = .ok () := by
  unfold guardRemoteSdp
  split <;> simp_all

/-- Every description applied in a run passed the gate against the last pin stored before
it. All its fingerprint lines carry that pin exactly when they agree with the first. -/
theorem applied_descriptions_pinned (earlier : List (Browser × WebCall)) (browser : Browser) (call : WebCall)
    (kind : SdpType) (sdp : Text)
    (applied : .setRemoteDescription kind sdp ∈
      ((Machine.final step new earlier).step (browser,call)).1.operations) :
    ∃ pin, (earlier.filterMap storedPin).getLast? = some pin ∧ pin.length = sha256FpLen ∧
      verifySdpFingerprintPin sdp pin = .ok () ∧ (FullyPinned pin sdp ↔ Consistent sdp) := by
  obtain ⟨gate,_⟩ := applies_iff.mp applied
  obtain ⟨pin,inForce,passed⟩ := guardRemoteSdp_ok_iff.mp gate
  have last : (earlier.filterMap storedPin).getLast? = some pin := by
    rw [final_dtlsPin] at inForce
    simpa [new] using inForce
  obtain ⟨call,_,stored⟩ := List.mem_filterMap.mp (List.mem_of_getLast? last)
  exact ⟨pin,last,storedPin_length stored,passed,fullyPinned_iff_consistent passed⟩

end WebClient

namespace Transparent

def browser : Browser := ⟨.ok [],.ok [],.ok (),.ok (),some [],.ok (),.ok (),.ok (),.new⟩

def pin : Bytes := List.replicate 32 0xaa

/-- A fingerprint line of 32 equal groups, ended by CRLF. -/
def fingerprintLine (alg : String) (group : Text) : Text :=
  "a=fingerprint:".toList ++ alg.toList ++ [' '] ++ [':'].intercalate (List.replicate 32 group) ++ ['\r','\n']

def pinnedSdp : Text := "v=0\r\n".toList ++ fingerprintLine "SHA-256" ['A','a']

def swappedSdp : Text := pinnedSdp ++ "m=application 9 UDP/DTLS/SCTP webrtc-datachannel\r\n".toList ++
  fingerprintLine "sha-256" ['B','B']

end Transparent

namespace WebClient

open Transparent (browser pin pinnedSdp swappedSdp)

/-- A description with one fingerprint line, the pinned one. -/
theorem applied_descriptions_pinned_single :
    .setRemoteDescription .answer pinnedSdp ∈
      ((Machine.final step new [(browser,.setDtlsPin pin)]).step
        (browser,.connectAsOfferer pinnedSdp)).1.operations ∧ FullyPinned pin pinnedSdp := by
  have applied : .setRemoteDescription .answer pinnedSdp ∈
      ((Machine.final step new [(browser,.setDtlsPin pin)]).step
        (browser,.connectAsOfferer pinnedSdp)).1.operations := by decide +kernel
  obtain ⟨stored,last,_,_,pinned⟩ := applied_descriptions_pinned _ _ _ _ _ applied
  cases last
  exact ⟨applied,pinned.mpr (by unfold Consistent; decide +kernel)⟩

/-- The relay appends a media section with its own fingerprint: the gate lets it pass. -/
theorem swapped_fingerprint_applied :
    .setRemoteDescription .offer swappedSdp ∈
      ((Machine.final step new [(browser,.setDtlsPin pin)]).step
        (browser,.connectAsAnswerer swappedSdp)).1.operations ∧
    ∃ rawLine ∈ attributeLines swappedSdp, ∃ other, lineFingerprint rawLine = some (.ok other) ∧ other ≠ pin :=
  ⟨by decide +kernel,Transparent.fingerprintLine "sha-256" ['B','B'] |>.dropLast,by decide,
    List.replicate 32 0xbb,by decide,by decide⟩

end WebClient

end Streamhaul
