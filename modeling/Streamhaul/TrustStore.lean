import Streamhaul.NoiseCompletion
import Streamhaul.PakeBinding
import Streamhaul.PeerAuth

/-! The trust store of a device: which fingerprints it has pinned and which it has revoked. The
operator, the two pairing modes and the handshake's trust check all go through it. -/
namespace Streamhaul

inductive TrustState where
  | trusted
  | revoked
  deriving DecidableEq

inductive TrustOutcome where
  | pinned
  | wasRevoked
  deriving DecidableEq

inductive PairingOutcome where
  | pinned (peer : DeviceIdentity)
  | reTrustAfterRevokeRequiresConfirmation (peer : DeviceIdentity)

/-- The token of a human who compared two codes; it names the peer it may pin. -/
structure SasConfirmed where
  peer : DeviceIdentity

/-- One state for each fingerprint, so none is both trusted and revoked. -/
structure SoftwareKeystore where
  identity : DeviceIdentity
  signer : Bytes → Vector UInt8 64
  peers : AssocMap Text TrustState

def Sas.confirm (peer : DeviceIdentity) (humanSaidMatch : Bool) : Option SasConfirmed :=
  if humanSaidMatch then some ⟨peer⟩ else none

namespace SoftwareKeystore

def fromSigningKey (suite : KeySuite) (verifyingKey : Key) (signer : Bytes → Vector UInt8 64) : SoftwareKeystore :=
  ⟨.fromVerifyingKey suite verifyingKey,signer,.empty⟩

section Store

variable (store : SoftwareKeystore)

def trustPeer (id : DeviceIdentity) : SoftwareKeystore :=
  { store with peers := store.peers.insert id.fingerprint .trusted }

def isTrusted (id : DeviceIdentity) : Bool := store.peers.get? id.fingerprint = some .trusted

def revokePeer (id : DeviceIdentity) : SoftwareKeystore :=
  { store with peers := store.peers.insert id.fingerprint .revoked }

def wasPeerRevoked (id : DeviceIdentity) : Bool := store.peers.get? id.fingerprint = some .revoked

/-- Check and pin under one write lock. -/
def trustPeerIfNotRevoked (id : DeviceIdentity) : TrustOutcome × SoftwareKeystore :=
  match store.peers.get? id.fingerprint with
  | some .revoked => (.wasRevoked,store)
  | some .trusted | none => (.pinned,store.trustPeer id)

/-- The store as the handshake sees it, which knows a peer by its key. -/
def keystore (suite : KeySuite) : Keystore where
  deviceIdentity := .ok store.identity.verifyingKey
  sign data := .ok (store.signer data)
  isTrusted key := .ok (store.isTrusted (.fromVerifyingKey suite key))

end Store

end SoftwareKeystore

/-- Both pairing modes end here: with a token for this peer. -/
def pairToken (peer : DeviceIdentity) (store : SoftwareKeystore) : PairingOutcome × SoftwareKeystore :=
  match store.trustPeerIfNotRevoked peer with
  | (.pinned,store) => (.pinned peer,store)
  | (.wasRevoked,store) => (.reTrustAfterRevokeRequiresConfirmation peer,store)

def pairAttended (sasConfirmed : SasConfirmed) (store : SoftwareKeystore) : PairingOutcome × SoftwareKeystore :=
  pairToken sasConfirmed.peer store

def pairUnattended (suite : KeySuite) (pakeConfirmed : PakeConfirmed) (store : SoftwareKeystore) :
    PairingOutcome × SoftwareKeystore :=
  pairToken (.fromVerifyingKey suite pakeConfirmed.authorizesPin) store

namespace TrustStore

open Machine

/-- What reaches the store of one device. Handshakes and exchanges come in any state they can have. -/
inductive DeviceCall (σ τ : Type) where
  | trustPeer (id : Key)
  | revokePeer (id : Key)
  | isTrusted (id : Key)
  | wasPeerRevoked (id : Key)
  | attended (peer : Key) (humanSaidMatch : Bool)
  | unattended (exchange : PakeExchange τ) (peerConfirmation : Bytes)
  | complete (handshake : NoiseHandshake σ)

inductive DeviceResponse where
  | done
  | answer (holds : Bool)
  | declined
  | refused (e : CryptoError)
  | paired (outcome : PairingOutcome)
  | admitted (outcome : NoiseHandshake.Outcome)

section Runs

variable {σ τ : Type} (snow : Snow σ) (h : Hkdf) (suite : KeySuite)

def step (store : SoftwareKeystore) : DeviceCall σ τ → DeviceResponse × SoftwareKeystore
  | .trustPeer id => (.done,store.trustPeer (.fromVerifyingKey suite id))
  | .revokePeer id => (.done,store.revokePeer (.fromVerifyingKey suite id))
  | .isTrusted id => (.answer (store.isTrusted (.fromVerifyingKey suite id)),store)
  | .wasPeerRevoked id => (.answer (store.wasPeerRevoked (.fromVerifyingKey suite id)),store)
  | .attended peer humanSaidMatch =>
    match Sas.confirm (.fromVerifyingKey suite peer) humanSaidMatch with
    | none => (.declined,store)
    | some token => (pairAttended token store).map .paired id
  | .unattended exchange peerConfirmation =>
    match exchange.finish peerConfirmation with
    | .error e => (.refused e,store)
    | .ok token => (pairUnattended suite token store).map .paired id
  | .complete handshake =>
    match handshake.complete snow h (store.keystore suite) with
    | .error e => (.refused e,store)
    | .ok outcome => (.admitted outcome,store)

/-- The operator pins the fingerprint by hand. -/
def Overrides (fp : Text) (call : DeviceCall σ τ) : Prop :=
  ∃ id, call = .trustPeer id ∧ (DeviceIdentity.fromVerifyingKey suite id).fingerprint = fp

def Revokes (fp : Text) (call : DeviceCall σ τ) : Prop :=
  ∃ id, call = .revokePeer id ∧ (DeviceIdentity.fromVerifyingKey suite id).fingerprint = fp

/-- A human saw the same code on both devices, or the peer proved the pairing code. -/
def Vouches (peer : Key) (call : DeviceCall σ τ) : Prop :=
  call = .attended peer true ∨ ∃ exchange mac, call = .unattended exchange mac ∧ exchange.finish mac = .ok ⟨peer⟩

def Confirms (fp : Text) (call : DeviceCall σ τ) : Prop :=
  ∃ peer, Vouches peer call ∧ (DeviceIdentity.fromVerifyingKey suite peer).fingerprint = fp

/-- Revoked, and not pinned by hand since. -/
def Barred (fp : Text) : List (DeviceCall σ τ) → Prop := Since (fun _ => Revokes suite fp) (Overrides suite fp)

/-- Pinned by hand, or by a pairing while it was not barred, and not revoked since. -/
def Standing (fp : Text) : List (DeviceCall σ τ) → Prop :=
  Since (fun earlier call => Overrides suite fp call ∨ Confirms suite fp call ∧ ¬Barred suite fp earlier)
    (Revokes suite fp)

variable {snow h suite}

theorem get?_trustPeerIfNotRevoked (store : SoftwareKeystore) (id : DeviceIdentity) (fp : Text) :
    (store.trustPeerIfNotRevoked id).2.peers.get? fp =
      if id.fingerprint = fp ∧ store.peers.get? fp ≠ some .revoked then some .trusted else store.peers.get? fp := by
  unfold SoftwareKeystore.trustPeerIfNotRevoked
  by_cases same : fp = id.fingerprint
  · subst same
    rcases found : store.peers.get? id.fingerprint with _ | _ | _ <;>
      simp [found,SoftwareKeystore.trustPeer,AssocMap.get?_insert]
  · rcases store.peers.get? id.fingerprint with _ | _ | _ <;>
      simp [same,Ne.symm same,SoftwareKeystore.trustPeer,AssocMap.get?_insert]

/-- A pairing with a token answers by what the store held, and pins unless that was a revocation. -/
theorem pairToken_eq (peer : DeviceIdentity) (store : SoftwareKeystore) :
    pairToken peer store =
      (if store.wasPeerRevoked peer then .reTrustAfterRevokeRequiresConfirmation peer else .pinned peer,
        (store.trustPeerIfNotRevoked peer).2) := by
  unfold pairToken SoftwareKeystore.trustPeerIfNotRevoked SoftwareKeystore.wasPeerRevoked
  rcases store.peers.get? peer.fingerprint with _ | _ | _ <;> simp

variable (snow h suite) in
/-- What a call decides about one fingerprint. -/
inductive Decides (store : SoftwareKeystore) (fp : Text) (call : DeviceCall σ τ) (after : Option TrustState) : Prop
  | overridden (by_hand : Overrides suite fp call) (not_revoked : ¬Revokes suite fp call)
      (pinned : after = some .trusted)
  | revoked (by_hand : Revokes suite fp call) (not_overridden : ¬Overrides suite fp call)
      (not_confirmed : ¬Confirms suite fp call) (dropped : after = some .revoked)
  | confirmed (token : Confirms suite fp call) (not_overridden : ¬Overrides suite fp call)
      (not_revoked : ¬Revokes suite fp call)
      (paired : after = if store.peers.get? fp = some .revoked then some .revoked else some .trusted)
  | untouched (not_overridden : ¬Overrides suite fp call) (not_revoked : ¬Revokes suite fp call)
      (not_confirmed : ¬Confirms suite fp call) (kept : after = store.peers.get? fp)

theorem get?_paired (store : SoftwareKeystore) (peer : DeviceIdentity) (fp : Text) (same : peer.fingerprint = fp) :
    (pairToken peer store).2.peers.get? fp =
      if store.peers.get? fp = some .revoked then some .revoked else some .trusted := by
  rw [pairToken_eq,get?_trustPeerIfNotRevoked]
  by_cases barred : store.peers.get? fp = some .revoked <;> simp [same,barred]

theorem get?_paired_other (store : SoftwareKeystore) (peer : DeviceIdentity) (fp : Text) (other : peer.fingerprint ≠ fp) :
    (pairToken peer store).2.peers.get? fp = store.peers.get? fp := by
  rw [pairToken_eq,get?_trustPeerIfNotRevoked,if_neg (fun both => other both.1)]

variable (snow h suite) in
theorem step_decides (store : SoftwareKeystore) (fp : Text) (call : DeviceCall σ τ) :
    Decides suite store fp call ((step snow h suite store call).2.peers.get? fp) := by
  cases call with
  | trustPeer id =>
    by_cases same : (DeviceIdentity.fromVerifyingKey suite id).fingerprint = fp
    · refine .overridden ⟨id,rfl,same⟩ (by simp [Revokes]) ?_
      simp [step,SoftwareKeystore.trustPeer,AssocMap.get?_insert,same]
    · refine .untouched (by simp [Overrides,same]) (by simp [Revokes]) (by simp [Confirms,Vouches]) ?_
      simp [step,SoftwareKeystore.trustPeer,AssocMap.get?_insert,Ne.symm same]
  | revokePeer id =>
    by_cases same : (DeviceIdentity.fromVerifyingKey suite id).fingerprint = fp
    · refine .revoked ⟨id,rfl,same⟩ (by simp [Overrides]) (by simp [Confirms,Vouches]) ?_
      simp [step,SoftwareKeystore.revokePeer,AssocMap.get?_insert,same]
    · refine .untouched (by simp [Overrides]) (by simp [Revokes,same]) (by simp [Confirms,Vouches]) ?_
      simp [step,SoftwareKeystore.revokePeer,AssocMap.get?_insert,Ne.symm same]
  | isTrusted id => exact .untouched (by simp [Overrides]) (by simp [Revokes]) (by simp [Confirms,Vouches]) rfl
  | wasPeerRevoked id => exact .untouched (by simp [Overrides]) (by simp [Revokes]) (by simp [Confirms,Vouches]) rfl
  | attended peer humanSaidMatch =>
    cases humanSaidMatch with
    | false => exact .untouched (by simp [Overrides]) (by simp [Revokes]) (by simp [Confirms,Vouches]) rfl
    | true =>
      by_cases same : (DeviceIdentity.fromVerifyingKey suite peer).fingerprint = fp
      · exact .confirmed ⟨peer,.inl rfl,same⟩ (by simp [Overrides]) (by simp [Revokes]) (get?_paired store _ fp same)
      · exact .untouched (by simp [Overrides]) (by simp [Revokes]) (by simp [Confirms,Vouches,same])
          (get?_paired_other store _ fp same)
  | unattended exchange peerConfirmation =>
    cases finished : exchange.finish peerConfirmation with
    | error e =>
      refine .untouched (by simp [Overrides]) (by simp [Revokes]) (by simp [Confirms,Vouches,finished]) ?_
      simp only [step,finished]
    | ok token =>
      by_cases same : (DeviceIdentity.fromVerifyingKey suite token.authorizesPin).fingerprint = fp
      · refine .confirmed ⟨_,.inr ⟨exchange,peerConfirmation,rfl,finished⟩,same⟩ (by simp [Overrides]) (by simp [Revokes]) ?_
        simp only [step,finished]
        exact get?_paired store _ fp same
      · have other : ¬Confirms suite fp (.unattended exchange peerConfirmation : DeviceCall σ τ) := by
          rintro ⟨peer,vouched | ⟨_,_,vouched,proved⟩,matched⟩
          · cases vouched
          · cases vouched
            rw [finished] at proved
            cases proved
            exact same matched
        refine .untouched (by simp [Overrides]) (by simp [Revokes]) other ?_
        simp only [step,finished]
        exact get?_paired_other store _ fp same
  | complete handshake =>
    refine .untouched (by simp [Overrides]) (by simp [Revokes]) (by simp [Confirms,Vouches]) ?_
    simp only [step]
    split <;> rfl

variable (suite) in
/-- The store answers for a fingerprint what the calls so far say. -/
structure Accounts (calls : List (DeviceCall σ τ)) (store : SoftwareKeystore) : Prop where
  trusted : ∀ fp, store.peers.get? fp = some .trusted ↔ Standing suite fp calls
  revoked : ∀ fp, store.peers.get? fp = some .revoked ↔ Barred suite fp calls

theorem accounts_step {calls : List (DeviceCall σ τ)} {store : SoftwareKeystore} (accounts : Accounts suite calls store)
    (call : DeviceCall σ τ) : Accounts suite (calls ++ [call]) (step snow h suite store call).2 := by
  refine ⟨fun fp => ?_,fun fp => ?_⟩
  · rw [Standing,since_concat,← Standing,← accounts.trusted fp,← accounts.revoked fp]
    cases step_decides snow h suite store fp call with
    | overridden by_hand not_revoked pinned => simp [by_hand,pinned]
    | revoked by_hand not_overridden not_confirmed dropped => simp [by_hand,not_overridden,not_confirmed,dropped]
    | confirmed token not_overridden not_revoked paired =>
      by_cases barred : store.peers.get? fp = some .revoked <;> simp [token,not_overridden,not_revoked,paired,barred]
    | untouched not_overridden not_revoked not_confirmed kept =>
      simp [not_overridden,not_revoked,not_confirmed,kept]
  · rw [Barred,since_concat,← Barred,← accounts.revoked fp]
    cases step_decides snow h suite store fp call with
    | overridden by_hand not_revoked pinned => simp [by_hand,not_revoked,pinned]
    | revoked by_hand not_overridden not_confirmed dropped => simp [by_hand,dropped]
    | confirmed token not_overridden not_revoked paired =>
      by_cases barred : store.peers.get? fp = some .revoked <;> simp [not_overridden,not_revoked,paired,barred]
    | untouched not_overridden not_revoked not_confirmed kept => simp [not_overridden,not_revoked,kept]

variable (snow h) in
theorem accounts_run (verifyingKey : Key) (signer : Bytes → Vector UInt8 64) (calls : List (DeviceCall σ τ)) :
    Accounts suite calls (final (step snow h suite) (.fromSigningKey suite verifyingKey signer) calls) := by
  refine calls_invariant (step snow h suite) (Accounts suite) (fun _ _ call accounts => accounts_step accounts call) _ calls ?_
  refine ⟨fun fp => ?_,fun fp => ?_⟩
  · exact iff_of_false (fun found => nomatch found) (not_since_nil _ _)
  · exact iff_of_false (fun found => nomatch found) (not_since_nil _ _)

end Runs

/-- Over every run of a device from an empty store, in any order of the operator's decisions, pairings
and handshakes: a peer is trusted exactly when it was pinned by hand, or by a pairing while it was not
barred, and not revoked since, and it counts as revoked exactly when no pin by hand came after a
revocation. A pairing of a barred peer says so and changes nothing, however the peer was vouched for;
any other pins it. A handshake ends in a session only with a peer on its record that stands then. -/
theorem trust_accounted {σ τ : Type} (snow : Snow σ) (h : Hkdf) (suite : KeySuite) (verifyingKey : Key)
    (signer : Bytes → Vector UInt8 64) (calls : List (DeviceCall σ τ)) :
    let store := final (step snow h suite) (.fromSigningKey suite verifyingKey signer) calls
    (∀ id : DeviceIdentity, (store.isTrusted id = true ↔ Standing suite id.fingerprint calls) ∧
      (store.wasPeerRevoked id = true ↔ Barred suite id.fingerprint calls)) ∧
    (∀ (peer : Key) (call : DeviceCall σ τ), Vouches peer call →
      let id := DeviceIdentity.fromVerifyingKey suite peer
      (Barred suite id.fingerprint calls →
        step snow h suite store call = (.paired (.reTrustAfterRevokeRequiresConfirmation id),store)) ∧
      (¬Barred suite id.fingerprint calls →
        step snow h suite store call = (.paired (.pinned id),store.trustPeer id))) ∧
    ∀ (handshake : NoiseHandshake σ) (outcome : NoiseHandshake.Outcome),
      (step snow h suite store (.complete handshake : DeviceCall σ τ)).1 = .admitted outcome →
        handshake.failed = false ∧ handshake.peerIdentity = some outcome.peerIdentity ∧
        Standing suite (DeviceIdentity.fromVerifyingKey suite outcome.peerIdentity).fingerprint calls := by
  intro store
  have accounts : Accounts suite calls store := accounts_run snow h verifyingKey signer calls
  refine ⟨fun id => ⟨?_,?_⟩,?_,?_⟩
  · rw [← accounts.trusted,SoftwareKeystore.isTrusted,decide_eq_true_eq]
  · rw [← accounts.revoked,SoftwareKeystore.wasPeerRevoked,decide_eq_true_eq]
  · intro peer call vouched id
    have paired : step snow h suite store call = (pairToken id store).map .paired (fun store => store) := by
      rcases vouched with rfl | ⟨exchange,mac,rfl,finished⟩
      · rfl
      · simp only [step,finished]
        rfl
    rw [paired,← accounts.revoked]
    constructor
    · intro barred
      simp [pairToken,SoftwareKeystore.trustPeerIfNotRevoked,barred]
    · intro free
      rw [pairToken_eq,SoftwareKeystore.wasPeerRevoked,SoftwareKeystore.trustPeerIfNotRevoked]
      rcases found : store.peers.get? id.fingerprint with _ | _ | _
      · simp
      · simp
      · exact absurd found free
  · intro handshake outcome admitted
    cases completed : handshake.complete snow h (store.keystore suite) with
    | error e => simp [step,completed] at admitted
    | ok session =>
      simp only [step,completed,DeviceResponse.admitted.injEq] at admitted
      subst admitted
      obtain ⟨alive,identity,_,trusted⟩ := NoiseHandshake.complete_ok completed
      refine ⟨alive,identity,?_⟩
      rw [← accounts.trusted]
      simpa [SoftwareKeystore.keystore,SoftwareKeystore.isTrusted] using trusted

end TrustStore

end Streamhaul
