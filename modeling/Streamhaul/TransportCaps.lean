import Streamhaul.ShpHeaders

/-! The two bytes that name the transports an endpoint supports, and the choice between two such
sets by one fixed order. -/
namespace Streamhaul

def transportCapsLen : Nat := 2
def transportCapsVersion : UInt8 := 0x01
def maskQuic : UInt8 := 0x01
def maskWebrtc : UInt8 := 0x02

inductive TransportKind where
  | quic
  | webrtc
  deriving DecidableEq, Repr

structure TransportCaps where
  supportsQuic : Bool
  supportsWebrtc : Bool
  deriving DecidableEq

inductive NegotiationError where
  | noCommonTransport (localCaps peerCaps : TransportCaps)
  deriving DecidableEq

namespace TransportCaps

def has (caps : TransportCaps) : TransportKind → Bool
  | .quic => caps.supportsQuic
  | .webrtc => caps.supportsWebrtc

/-- The sets named by a mask; the other bits are ignored. -/
def ofMask (mask : UInt8) : TransportCaps := ⟨mask &&& maskQuic != 0,mask &&& maskWebrtc != 0⟩

end TransportCaps

def encodeTransportCaps (caps : TransportCaps) : Bytes :=
  [transportCapsVersion,(if caps.supportsQuic then maskQuic else 0) ||| (if caps.supportsWebrtc then maskWebrtc else 0)]

def decodeTransportCaps (data : Bytes) : Except ProtocolError TransportCaps :=
  match data with
  | version :: mask :: _ =>
    if version ≠ transportCapsVersion then .error (.unknownVersion version) else .ok (TransportCaps.ofMask mask)
  | _ => .error (.truncated transportCapsLen data.length)

theorem length_encodeTransportCaps (caps : TransportCaps) : (encodeTransportCaps caps).length = transportCapsLen := rfl

theorem decodeTransportCaps_encode (caps : TransportCaps) : decodeTransportCaps (encodeTransportCaps caps) = .ok caps := by
  obtain ⟨quic,webrtc⟩ := caps
  cases quic <;> cases webrtc <;> rfl

/-- Two bytes are taken when the first is the version. -/
theorem decodeTransportCaps_eq_ok_iff {data : Bytes} {caps : TransportCaps} (size : data.length = transportCapsLen) :
    decodeTransportCaps data = .ok caps ↔ ∃ mask, data = [transportCapsVersion,mask] ∧ caps = .ofMask mask := by
  obtain ⟨version,mask,rfl⟩ := List.length_eq_two.mp size
  constructor
  · intro decoded
    by_cases known : version = transportCapsVersion
    · rw [decodeTransportCaps,if_neg (not_not.mpr known)] at decoded
      exact ⟨mask,by rw [known],(Except.ok.inj decoded).symm⟩
    · rw [decodeTransportCaps,if_pos known] at decoded
      cases decoded
  · rintro ⟨mask',same,rfl⟩
    rw [same]
    rfl

def preferenceOrder : List TransportKind := [.quic,.webrtc]

/-- The first transport of the fixed order that both ends support. -/
def negotiate (localCaps peerCaps : TransportCaps) : Except NegotiationError TransportKind :=
  match preferenceOrder.find? (fun kind => localCaps.has kind && peerCaps.has kind) with
  | some kind => .ok kind
  | none => .error (.noCommonTransport localCaps peerCaps)

variable {kind : TransportKind} {localCaps peerCaps : TransportCaps}

theorem negotiate_eq_ok
    (chosen : negotiate localCaps peerCaps = .ok kind) : localCaps.has kind = true ∧ peerCaps.has kind = true := by
  unfold negotiate at chosen
  cases found : preferenceOrder.find? (fun kind => localCaps.has kind && peerCaps.has kind) with
  | none =>
    rw [found] at chosen
    cases chosen
  | some first =>
    rw [found] at chosen
    rw [← Except.ok.inj chosen]
    have both := List.find?_some found
    exact Bool.and_eq_true_iff.mp both

theorem exists_negotiate (here : localCaps.has kind = true)
    (there : peerCaps.has kind = true) : ∃ chosen, negotiate localCaps peerCaps = .ok chosen := by
  unfold negotiate
  cases found : preferenceOrder.find? (fun kind => localCaps.has kind && peerCaps.has kind) with
  | some first => exact ⟨first,rfl⟩
  | none =>
    have listed : kind ∈ preferenceOrder := by cases kind <;> decide
    have refused := List.find?_eq_none.mp found kind listed
    rw [here,there] at refused
    exact absurd rfl refused

theorem negotiate_swap
    (chosen : negotiate localCaps peerCaps = .ok kind) : negotiate peerCaps localCaps = .ok kind := by
  have same : (fun kind => peerCaps.has kind && localCaps.has kind) = fun kind => localCaps.has kind && peerCaps.has kind :=
    funext (fun _ => Bool.and_comm _ _)
  unfold negotiate at chosen ⊢
  rw [same]
  cases found : preferenceOrder.find? (fun kind => localCaps.has kind && peerCaps.has kind) with
  | some first => rwa [found] at chosen
  | none =>
    rw [found] at chosen
    cases chosen

end Streamhaul
