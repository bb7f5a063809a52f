import Streamhaul.ChannelKill
import Streamhaul.Ugc

/-! The host-side gate: a sealed capability mask, the epoch floor it shares with other
sessions, and the kill switch over both. -/
namespace Streamhaul

/-- A floor for grant epochs. `bump` returns the floor it leaves. -/
class MinEpochStore (σ : Type) where
  current : σ → Nat
  bump : σ → Nat → Nat × σ

namespace MinEpochStore

/-- The provided method, a read and a bump. -/
def bumpMinEpoch [MinEpochStore σ] (store : σ) : Nat × σ :=
  bump store (satAdd u64Max (current store) 1)

end MinEpochStore

open MinEpochStore (current bump bumpMinEpoch)

/-- What every store documents: a bump raises the floor to the larger of the two. -/
class LawfulMinEpochStore (σ : Type) [MinEpochStore σ] : Prop where
  current_bump : ∀ (store : σ) (floor : Nat), current (bump store floor).2 = max (current store) floor
  bump_floor : ∀ (store : σ) (floor : Nat), (bump store floor).1 = current (bump store floor).2

structure InMemoryMinEpochStore where
  floor : Nat
  deriving DecidableEq

instance : MinEpochStore InMemoryMinEpochStore where
  current store := store.floor
  bump store floor := (max store.floor floor,⟨max store.floor floor⟩)

instance : LawfulMinEpochStore InMemoryMinEpochStore := ⟨fun _ _ => rfl,fun _ _ => rfl⟩

structure FreshPresence where
  grantedAt : Int
  deriving DecidableEq

def elevationFreshnessWindowSecs : Int := 600

inductive PrivilegedAction where
  | viewFrame | injectPointer | injectKey | readClipboard | writeClipboard
  | startFileTransfer | receiveFile | playAudio | elevatedAction
  deriving DecidableEq

def PrivilegedAction.requiredCap : PrivilegedAction → Capabilities
  | .viewFrame => Capabilities.view
  | .injectPointer | .injectKey => Capabilities.control
  | .readClipboard | .writeClipboard => Capabilities.clipboard
  | .startFileTransfer | .receiveFile => Capabilities.file
  | .playAudio => Capabilities.audio
  | .elevatedAction => Capabilities.elevation

inductive Denied where
  | capabilityMissing (action : PrivilegedAction) (required held : Capabilities)
  | elevationRequiresFreshPresence
  | killed
  deriving DecidableEq

structure SessionAuthorizer (σ : Type) where
  sealedCaps : Capabilities
  killed : Bool
  freshPresence : Option FreshPresence
  epochStore : σ
  deriving DecidableEq

namespace SessionAuthorizer

def sealMask (deviceAclCaps ugcCaps attendedSelection accountPolicyCaps : Capabilities) (epochStore : σ) :
    SessionAuthorizer σ where
  sealedCaps := ((deviceAclCaps.inter ugcCaps).inter attendedSelection).inter accountPolicyCaps
  killed := false
  freshPresence := none
  epochStore := epochStore

def setFreshPresence (a : SessionAuthorizer σ) (presence : FreshPresence) : SessionAuthorizer σ :=
  if a.killed then a else { a with freshPresence := some presence }

def authorize (a : SessionAuthorizer σ) (action : PrivilegedAction) : Except Denied Unit :=
  if a.killed then .error .killed
  else if action = .elevatedAction then .error .elevationRequiresFreshPresence
  else if a.sealedCaps.contains action.requiredCap then .ok ()
  else .error (.capabilityMissing action action.requiredCap a.sealedCaps)

/-- A token from the future is never fresh. -/
def isFresh (presence : Option FreshPresence) (now : Int) : Bool :=
  match presence with
  | none => false
  | some fp =>
    if now < fp.grantedAt then false
    else decide (satAddI64 now (-fp.grantedAt) ≤ elevationFreshnessWindowSecs)

def authorizeWithClock (a : SessionAuthorizer σ) (action : PrivilegedAction) (now : Int) :
    Except Denied Unit :=
  if a.killed then .error .killed
  else if action = .elevatedAction then
    if a.sealedCaps.contains Capabilities.elevation = false then
      .error (.capabilityMissing action action.requiredCap a.sealedCaps)
    else if isFresh a.freshPresence now then .ok ()
    else .error .elevationRequiresFreshPresence
  else if a.sealedCaps.contains action.requiredCap then .ok ()
  else .error (.capabilityMissing action action.requiredCap a.sealedCaps)

/-- The second call on a killed session does nothing. -/
def kill [MinEpochStore σ] (a : SessionAuthorizer σ) (keys : SessionKeys) :
    SessionAuthorizer σ × SessionKeys :=
  if a.killed then (a,keys)
  else ({ a with killed := true, epochStore := (bumpMinEpoch a.epochStore).2 },keys.zeroizeAll)

theorem current_bumpMinEpoch [MinEpochStore σ] [LawfulMinEpochStore σ] (store : σ) :
    current (bumpMinEpoch store).2 = max (current store) (satAdd u64Max (current store) 1) :=
  LawfulMinEpochStore.current_bump store _

/-- The floor a kill leaves is above an epoch that passed the old floor only if the two
were equal and the floor can still move. -/
theorem lt_bumpMinEpoch_iff [MinEpochStore σ] [LawfulMinEpochStore σ] (store : σ) (epoch : Nat)
    (passed : current store ≤ epoch) :
    epoch < current (bumpMinEpoch store).2 ↔ epoch = current store ∧ current store < u64Max := by
  rw [current_bumpMinEpoch,satAdd]
  omega

theorem kill_store [MinEpochStore σ] (a : SessionAuthorizer σ) (keys : SessionKeys)
    (alive : a.killed = false) : (a.kill keys).1.epochStore = (bumpMinEpoch a.epochStore).2 := by
  simp [kill,alive]

/-- Kill-then-reconnect. The certificate that opened a session is refused from then on, at
every later clock, exactly if its epoch was the floor itself. -/
theorem kill_revokes_iff [MinEpochStore σ] [LawfulMinEpochStore σ] (suite : IdentitySuite) (ugc : Ugc)
    (hostIdentity granteePeerIdentity : Key) (now : Int) (caps : Capabilities)
    (a : SessionAuthorizer σ) (keys : SessionKeys) (alive : a.killed = false)
    (accepted : ugc.verify suite hostIdentity granteePeerIdentity (current a.epochStore) now = .ok caps) :
    (∀ later, now ≤ later →
      let again := ugc.verify suite hostIdentity granteePeerIdentity
        (current (a.kill keys).1.epochStore) later
      again = .error .ugcRevoked ∨ again = .error .ugcExpired) ↔
    ugc.fields.epoch = current a.epochStore ∧ current a.epochStore < u64Max := by
  obtain ⟨passed,-⟩ := Ugc.verify_accepted accepted
  rw [← lt_bumpMinEpoch_iff a.epochStore ugc.fields.epoch passed.floor,kill_store a keys alive]
  constructor
  · intro refused
    by_contra above
    have again := Ugc.verify_identified passed.identified (current (bumpMinEpoch a.epochStore).2) now
    rw [if_neg (not_le.mpr passed.unexpired),if_neg (not_lt.mpr passed.issued),if_neg above] at again
    rcases refused now le_rfl with revoked | expired
    · rw [again] at revoked
      cases revoked
    · rw [again] at expired
      cases expired
  · intro below later _
    have again := Ugc.verify_identified passed.identified (current (bumpMinEpoch a.epochStore).2) later
    rw [if_pos below] at again
    split_ifs at again
    · exact .inr again
    · exact .inr again
    · exact .inl again

theorem kill_keys [MinEpochStore σ] (h : Hkdf) (a : SessionAuthorizer σ) (keys : SessionKeys)
    (alive : a.killed = false) (intact : keys.Intact h) : (a.kill keys).2.Killed := by
  simp only [kill,alive,Bool.false_eq_true,if_false]
  exact SessionKeys.zeroizeAll_killed h keys intact

theorem authorize_ok {a : SessionAuthorizer σ} {action : PrivilegedAction}
    (allowed : a.authorize action = .ok ()) :
    a.killed = false ∧ a.sealedCaps.contains action.requiredCap = true := by
  unfold authorize at allowed
  split_ifs at allowed with killed elevated held
  exact ⟨by simpa using killed,held⟩

theorem authorizeWithClock_ok {a : SessionAuthorizer σ} {action : PrivilegedAction} {now : Int}
    (allowed : a.authorizeWithClock action now = .ok ()) :
    a.killed = false ∧ a.sealedCaps.contains action.requiredCap = true := by
  unfold authorizeWithClock at allowed
  split_ifs at allowed with killed elevated missing fresh held
  · subst elevated
    exact ⟨by simpa using killed,by simpa [PrivilegedAction.requiredCap] using missing⟩
  · exact ⟨by simpa using killed,held⟩

end SessionAuthorizer

/-- The calls on one gate, and the bumps that other holders of its store make. -/
inductive AuthzCall where
  | setFreshPresence (presence : FreshPresence)
  | authorize (action : PrivilegedAction)
  | authorizeWithClock (action : PrivilegedAction) (now : Int)
  | kill
  | bump (floor : Nat)

structure AuthzSession (σ : Type) where
  authorizer : SessionAuthorizer σ
  keys : SessionKeys

namespace AuthzSession

variable {σ : Type} [MinEpochStore σ]

def step (s : AuthzSession σ) : AuthzCall → Option (Except Denied Unit) × AuthzSession σ
  | .setFreshPresence presence => (none,{ s with authorizer := s.authorizer.setFreshPresence presence })
  | .authorize action => (some (s.authorizer.authorize action),s)
  | .authorizeWithClock action now => (some (s.authorizer.authorizeWithClock action now),s)
  | .kill =>
    match s.authorizer.kill s.keys with
    | (authorizer,keys) => (none,⟨authorizer,keys⟩)
  | .bump floor => (none,{ s with authorizer := { s.authorizer with
      epochStore := (bump s.authorizer.epochStore floor).2 } })

def asked : AuthzCall → Option PrivilegedAction
  | .authorize action | .authorizeWithClock action _ => some action
  | _ => none

/-- What no call changes or takes back: the mask, a kill, the floor. -/
structure Monotone (s s' : AuthzSession σ) : Prop where
  mask : s'.authorizer.sealedCaps = s.authorizer.sealedCaps
  killed : s.authorizer.killed = true → s'.authorizer.killed = true
  floor : current s.authorizer.epochStore ≤ current s'.authorizer.epochStore

theorem step_monotone [LawfulMinEpochStore σ] (s : AuthzSession σ) (call : AuthzCall) :
    Monotone s (s.step call).2 := by
  cases call with
  | setFreshPresence presence =>
    simp only [step,SessionAuthorizer.setFreshPresence]
    split <;> exact ⟨rfl,id,le_rfl⟩
  | authorize | authorizeWithClock => exact ⟨rfl,id,le_rfl⟩
  | kill =>
    simp only [step,SessionAuthorizer.kill]
    split
    · exact ⟨rfl,id,le_rfl⟩
    · refine ⟨rfl,fun _ => rfl,?_⟩
      apply (le_max_left _ _).trans_eq
      exact (SessionAuthorizer.current_bumpMinEpoch _).symm
  | bump floor =>
    refine ⟨rfl,id,?_⟩
    apply (le_max_left _ floor).trans_eq
    exact (LawfulMinEpochStore.current_bump _ floor).symm

theorem decision_ok {s : AuthzSession σ} {call : AuthzCall} (allowed : (s.step call).1 = some (.ok ())) :
    ∃ action, asked call = some action ∧ s.authorizer.killed = false ∧
      s.authorizer.sealedCaps.contains action.requiredCap = true := by
  cases call with
  | authorize action => exact ⟨action,rfl,SessionAuthorizer.authorize_ok (Option.some.inj allowed)⟩
  | authorizeWithClock action now =>
    exact ⟨action,rfl,SessionAuthorizer.authorizeWithClock_ok (Option.some.inj allowed)⟩
  | setFreshPresence | kill | bump => cases allowed

/-- Non-escalation over a whole run: an allowed action lies in all four sources the gate
was sealed from, and nothing is allowed once the session was killed. -/
theorem allowed_within_sources [LawfulMinEpochStore σ] (acl ugc attended policy : Capabilities) (store : σ)
    (keys : SessionKeys) (calls : List AuthzCall) :
    ∀ e ∈ Machine.trace step ⟨.sealMask acl ugc attended policy store,keys⟩ calls,
      e.response = some (.ok ()) → ∃ action, asked e.call = some action ∧
        e.before.authorizer.killed = false ∧ ∀ source ∈ [acl,ugc,attended,policy],
          source.contains action.requiredCap = true := by
  intro e member allowed
  let mask := (SessionAuthorizer.sealMask acl ugc attended policy store).sealedCaps
  obtain ⟨sealed,fired⟩ := Machine.trace_invariant step (fun _ _ => True)
    (fun s => s.authorizer.sealedCaps = mask)
    (fun s call _ same => (step_monotone s call).mask.trans same) _ calls rfl (fun _ _ => trivial) e member
  rw [fired] at allowed
  obtain ⟨action,asks,alive,held⟩ := decision_ok allowed
  refine ⟨action,asks,alive,?_⟩
  rw [sealed] at held
  simpa [mask,SessionAuthorizer.sealMask,Capabilities.contains_inter,and_assoc] using held

end AuthzSession

namespace Transparent

def suite : IdentitySuite where
  verifyStrict _ _ _ := true
  sha256 bytes := Vector.ofFn (fun i => bytes.getD i.val 0)

def host : Key := Vector.replicate 32 1
def grantee : Key := Vector.replicate 32 9

def ugc (epoch : Nat) : Ugc :=
  let fields : UgcFields := ⟨grantee,3#32,epoch,3600,0⟩
  ⟨Vector.ofFn (fun i => (Ugc.buildTbs fields).getD i.val 0),Vector.replicate 64 0,fields⟩

def authorizer (floor : Nat) : SessionAuthorizer InMemoryMinEpochStore :=
  SessionAuthorizer.sealMask Capabilities.all (Capabilities.fromBitsTruncate 3#32) Capabilities.all
    Capabilities.all ⟨floor⟩

end Transparent

namespace SessionAuthorizer

/-- A certificate at the floor. -/
theorem kill_revokes_at_floor :
    let a := Transparent.authorizer 4
    let keys := Transparent.session .responder
    (Transparent.ugc 4).verify Transparent.suite Transparent.host Transparent.grantee
      (current a.epochStore) 10 = .ok (Capabilities.fromBitsTruncate 3#32) ∧
    ∀ later, 10 ≤ later →
      let again := (Transparent.ugc 4).verify Transparent.suite Transparent.host Transparent.grantee
        (current (a.kill keys).1.epochStore) later
      again = .error .ugcRevoked ∨ again = .error .ugcExpired := by
  have accepted : (Transparent.ugc 4).verify Transparent.suite Transparent.host Transparent.grantee
      (current (Transparent.authorizer 4).epochStore) 10 = .ok (Capabilities.fromBitsTruncate 3#32) := by
    decide
  exact ⟨accepted,(kill_revokes_iff Transparent.suite (Transparent.ugc 4) Transparent.host
    Transparent.grantee 10 _ (Transparent.authorizer 4) (Transparent.session .responder) rfl accepted).mpr
      ⟨rfl,by decide⟩⟩

/-- A certificate above the floor outlives the kill: the same bytes verify a second later. -/
theorem kill_leaves_certificate :
    let a := Transparent.authorizer 0
    let killed := a.kill (Transparent.session .responder)
    (Transparent.ugc 1).verify Transparent.suite Transparent.host Transparent.grantee
      (current a.epochStore) 10 = .ok (Capabilities.fromBitsTruncate 3#32) ∧
    killed.1.killed = true ∧
    (Transparent.ugc 1).verify Transparent.suite Transparent.host Transparent.grantee
      (current killed.1.epochStore) 11 = .ok (Capabilities.fromBitsTruncate 3#32) :=
  ⟨by decide,by decide,by decide⟩

end SessionAuthorizer

end Streamhaul
