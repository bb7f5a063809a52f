import Streamhaul.Pake

/-! What an accepted confirmation MAC says: two exchanges that agree on key, session and
identities, in opposite roles. HKDF is only asked not to collide on the inputs of these two. -/
namespace Streamhaul

/-- HKDF has no collision among the listed keys, nor among the listed pairs of key and info. -/
structure Hkdf.CollisionFree (h : Hkdf) (keys : List Bytes) (inputs : List (Bytes × Bytes)) : Prop where
  extract : ∀ a ∈ keys, ∀ b ∈ keys, h.extract a = h.extract b → a = b
  expand : ∀ a ∈ inputs, ∀ b ∈ inputs, h.okm a.1 a.2 32 = h.okm b.1 b.2 32 → a = b

namespace PakeExchange

open Machine

variable {σ ρ : Type} (h : Hkdf) (spake : Spake2 σ ρ) (suite : IdentitySuite)

def macInfo : Bytes := ascii "mac" ++ [0]

def confirmKey (x : PakeExchange σ) (spake2Key roleLabel : Bytes) : Key :=
  h.okm (h.extract spake2Key).toList (x.confirmationInfo suite roleLabel) 32

def mac (x : PakeExchange σ) (spake2Key roleLabel : Bytes) : Key :=
  h.okm (h.extract (x.confirmKey h suite spake2Key roleLabel).toList).toList macInfo 32

/-- The SPAKE2 key an exchange gets from the messages it is given: only the first one of the
right length counts. -/
def spake2Key (x : PakeExchange σ) (msgs : List Bytes) : Option Bytes :=
  x.spake2State.bind fun state => (msgs.find? fun msg => msg.length = 33).bind (spake.finish state)

/-- The keys that HKDF extracts from in an exchange with this SPAKE2 key. -/
def keysUsed (x : PakeExchange σ) (key : Bytes) : List Bytes :=
  [key,(x.confirmKey h suite key x.localConfirmInfoLabel).toList,(x.confirmKey h suite key x.peerConfirmInfoLabel).toList]

/-- The keys and infos that HKDF expands in an exchange with this SPAKE2 key. -/
def inputsUsed (x : PakeExchange σ) (key : Bytes) : List (Bytes × Bytes) :=
  [((h.extract key).toList,x.confirmationInfo suite x.localConfirmInfoLabel),
    ((h.extract key).toList,x.confirmationInfo suite x.peerConfirmInfoLabel),
    ((h.extract (x.confirmKey h suite key x.localConfirmInfoLabel).toList).toList,macInfo),
    ((h.extract (x.confirmKey h suite key x.peerConfirmInfoLabel).toList).toList,macInfo)]

/-- The two exchanges belong together. -/
structure Matches (x y : PakeExchange σ) : Prop where
  roles : y.role ≠ x.role
  session : y.handshakeHash = x.handshakeHash
  peer : fingerprint suite y.localId = fingerprint suite x.peerId
  self : fingerprint suite y.peerId = fingerprint suite x.localId

section Reads

variable {h spake suite} {x : PakeExchange σ}

theorem confirmations_eq (key : Bytes) :
    x.confirmations h suite key = .ok (x.mac h suite key x.localConfirmInfoLabel,x.mac h suite key x.peerConfirmInfoLabel) := by
  simp [confirmations,deriveConfirmationKey,finalMac,mac,confirmKey,macInfo]

theorem readPeerMsg_short {msg : Bytes} (length : msg.length ≠ 33) : (x.readPeerMsg h spake suite msg).2 = x := by
  rw [readPeerMsg,if_pos length]

theorem readPeerMsg_consumed (msg : Bytes) (consumed : x.spake2State = none) : (x.readPeerMsg h spake suite msg).2 = x := by
  rw [readPeerMsg]
  split
  · rfl
  · rw [consumed]

theorem readPeerMsg_fresh {msg : Bytes} {state : σ} (length : msg.length = 33) (fresh : x.spake2State = some state)
    (unread : x.localConfirmation = none ∧ x.peerExpectedMac = none) :
    (x.readPeerMsg h spake suite msg).2 = { x with
      spake2State := none
      localConfirmation := (spake.finish state msg).map (x.mac h suite · x.localConfirmInfoLabel)
      peerExpectedMac := (spake.finish state msg).map (x.mac h suite · x.peerConfirmInfoLabel) } := by
  rw [readPeerMsg,if_neg (not_not.mpr length),fresh]
  cases finished : spake.finish state msg with
  | none =>
    obtain ⟨noLocal,noPeer⟩ := unread
    simp [finished,noLocal,noPeer]
  | some key =>
    simp only [finished,confirmations_eq,Option.map_some]
    rfl

theorem final_consumed (msgs : List Bytes) (consumed : x.spake2State = none) :
    final (readPeerMsg h spake suite) x msgs = x := by
  induction msgs with
  | nil => rfl
  | cons msg rest ih => rw [final,readPeerMsg_consumed msg consumed,ih]

theorem final_reads (msgs : List Bytes) {state : σ} (fresh : x.spake2State = some state)
    (unread : x.localConfirmation = none ∧ x.peerExpectedMac = none) :
    ∃ left, final (readPeerMsg h spake suite) x msgs = { x with
      spake2State := left
      localConfirmation := (x.spake2Key spake msgs).map (x.mac h suite · x.localConfirmInfoLabel)
      peerExpectedMac := (x.spake2Key spake msgs).map (x.mac h suite · x.peerConfirmInfoLabel) } := by
  induction msgs with
  | nil =>
    refine ⟨some state,?_⟩
    cases x
    simp_all [final,spake2Key]
  | cons msg rest ih =>
    by_cases length : msg.length = 33
    · refine ⟨none,?_⟩
      rw [final,readPeerMsg_fresh length fresh unread,final_consumed rest rfl]
      simp [spake2Key,fresh,length]
    · rw [final,readPeerMsg_short length]
      obtain ⟨left,same⟩ := ih
      refine ⟨left,?_⟩
      rw [same]
      simp [spake2Key,length]

theorem startWithRng_fresh {rng : ρ} {role : PakeRole} {code : ValidPairingCode} {localId peerId handshakeHash : Key}
    (started : startWithRng spake suite rng role code localId peerId handshakeHash = .ok x) :
    (∃ state, x.spake2State = some state) ∧ x.localConfirmation = none ∧ x.peerExpectedMac = none := by
  cases started
  exact ⟨⟨_,rfl⟩,rfl,rfl⟩

end Reads

section Macs

variable {h suite} {x y : PakeExchange σ} {inputs : List (Bytes × Bytes)} {keys : List Bytes}

theorem length_fingerprint (key : Key) : (fingerprint suite key).length = 64 := by
  simp [fingerprint,List.length_flatMap]

/-- The labels are of one length, so what follows them can be told apart. -/
theorem length_localConfirmInfoLabel : x.localConfirmInfoLabel.length = 30 := by
  unfold localConfirmInfoLabel
  cases x.role <;> rfl

theorem length_peerConfirmInfoLabel : x.peerConfirmInfoLabel.length = 30 := by
  unfold peerConfirmInfoLabel
  cases x.role <;> rfl

theorem confirmationInfo_inj {left right : Bytes} (width : left.length = right.length)
    (same : x.confirmationInfo suite left = y.confirmationInfo suite right) :
    left = right ∧ x.handshakeHash = y.handshakeHash ∧ fingerprint suite x.idA = fingerprint suite y.idA ∧
      fingerprint suite x.idB = fingerprint suite y.idB := by
  unfold confirmationInfo at same
  simp only [List.append_assoc] at same
  obtain ⟨label,rest⟩ := List.append_inj same width
  obtain ⟨hash,ids⟩ := List.append_inj rest (by simp)
  obtain ⟨first,second⟩ := List.append_inj ids (by rw [length_fingerprint,length_fingerprint])
  exact ⟨label,Vector.toList_inj.mp hash,first,second⟩

theorem labels_eq_iff : x.peerConfirmInfoLabel = y.localConfirmInfoLabel ↔ y.role ≠ x.role := by
  unfold peerConfirmInfoLabel localConfirmInfoLabel
  cases x.role <;> cases y.role <;> decide

/-- Two sides of opposite roles order their ids alike. -/
theorem fingerprints_eq_iff (roles : y.role ≠ x.role) :
    (fingerprint suite x.idA = fingerprint suite y.idA ∧ fingerprint suite x.idB = fingerprint suite y.idB) ↔
      (fingerprint suite y.localId = fingerprint suite x.peerId ∧
        fingerprint suite y.peerId = fingerprint suite x.localId) := by
  cases mine : x.role with
  | initiator =>
    cases theirs : y.role with
    | initiator => exact absurd (theirs.trans mine.symm) roles
    | responder =>
      simp only [idA,idB,mine,theirs]
      exact ⟨fun same => ⟨same.2.symm,same.1.symm⟩,fun same => ⟨same.2.symm,same.1.symm⟩⟩
  | responder =>
    cases theirs : y.role with
    | initiator =>
      simp only [idA,idB,mine,theirs]
      exact ⟨fun same => ⟨same.1.symm,same.2.symm⟩,fun same => ⟨same.1.symm,same.2.symm⟩⟩
    | responder => exact absurd (theirs.trans mine.symm) roles

theorem confirmationInfo_eq_iff :
    x.confirmationInfo suite x.peerConfirmInfoLabel = y.confirmationInfo suite y.localConfirmInfoLabel ↔
      Matches suite x y := by
  constructor
  · intro same
    obtain ⟨label,hash,ids⟩ :=
      confirmationInfo_inj (by rw [length_peerConfirmInfoLabel,length_localConfirmInfoLabel]) same
    have roles := labels_eq_iff.mp label
    obtain ⟨peer,self⟩ := (fingerprints_eq_iff roles).mp ids
    exact ⟨roles,hash.symm,peer,self⟩
  · rintro ⟨roles,session,peer,self⟩
    obtain ⟨first,second⟩ := (fingerprints_eq_iff roles).mpr ⟨peer,self⟩
    unfold confirmationInfo
    rw [labels_eq_iff.mpr roles,session,first,second]

/-- HKDF is called on these inputs for the MAC of one label. -/
structure Covers (h : Hkdf) (suite : IdentitySuite) (keys : List Bytes) (inputs : List (Bytes × Bytes))
    (x : PakeExchange σ) (key roleLabel : Bytes) : Prop where
  root : key ∈ keys
  confirm : (x.confirmKey h suite key roleLabel).toList ∈ keys
  first : ((h.extract key).toList,x.confirmationInfo suite roleLabel) ∈ inputs
  second : ((h.extract (x.confirmKey h suite key roleLabel).toList).toList,macInfo) ∈ inputs

theorem covers_local {key : Bytes} (known : x.keysUsed h suite key ⊆ keys) (used : x.inputsUsed h suite key ⊆ inputs) :
    Covers h suite keys inputs x key x.localConfirmInfoLabel := by
  refine ⟨known ?_,known ?_,used ?_,used ?_⟩
  all_goals simp [keysUsed,inputsUsed]

theorem covers_peer {key : Bytes} (known : x.keysUsed h suite key ⊆ keys) (used : x.inputsUsed h suite key ⊆ inputs) :
    Covers h suite keys inputs x key x.peerConfirmInfoLabel := by
  refine ⟨known ?_,known ?_,used ?_,used ?_⟩
  all_goals simp [keysUsed,inputsUsed]

/-- Through both stages of HKDF, equal MACs come from equal keys and equal infos. -/
theorem mac_inj (free : h.CollisionFree keys inputs)
    {key key' left right : Bytes} (mine : Covers h suite keys inputs x key left)
    (theirs : Covers h suite keys inputs y key' right)
    (same : x.mac h suite key left = y.mac h suite key' right) :
    key = key' ∧ x.confirmationInfo suite left = y.confirmationInfo suite right := by
  have second := free.expand _ mine.second _ theirs.second same
  have extracted := Vector.toList_inj.mp (congrArg Prod.fst second)
  have confirm := Vector.toList_inj.mp (free.extract _ mine.confirm _ theirs.confirm extracted)
  have first := free.expand _ mine.first _ theirs.first confirm
  have root := Vector.toList_inj.mp (congrArg Prod.fst first)
  exact ⟨free.extract _ mine.root _ theirs.root root,congrArg Prod.snd first⟩

theorem matches_of_mac (free : h.CollisionFree keys inputs)
    {keyX keyY : Bytes} (knownX : x.keysUsed h suite keyX ⊆ keys) (usedX : x.inputsUsed h suite keyX ⊆ inputs)
    (knownY : y.keysUsed h suite keyY ⊆ keys) (usedY : y.inputsUsed h suite keyY ⊆ inputs)
    (same : x.mac h suite keyX x.peerConfirmInfoLabel = y.mac h suite keyY y.localConfirmInfoLabel) :
    keyX = keyY ∧ Matches suite x y := by
  obtain ⟨key,info⟩ := mac_inj free (covers_peer knownX usedX) (covers_local knownY usedY) same
  exact ⟨key,confirmationInfo_eq_iff.mp info⟩

theorem mac_congr {key left right : Bytes} (same : x.confirmationInfo suite left = y.confirmationInfo suite right) :
    x.mac h suite key left = y.mac h suite key right := by
  unfold mac confirmKey
  rw [same]

end Macs

section Runs

variable {h spake suite} {x : PakeExchange σ} {msgs : List Bytes}

theorem localConfirmationMac_iff {state : σ} (fresh : x.spake2State = some state)
    (unread : x.localConfirmation = none ∧ x.peerExpectedMac = none) (m : Key) :
    (final (readPeerMsg h spake suite) x msgs).localConfirmationMac = .ok m ↔
      ∃ key, x.spake2Key spake msgs = some key ∧ x.mac h suite key x.localConfirmInfoLabel = m := by
  obtain ⟨left,same⟩ := @final_reads σ ρ h spake suite x msgs state fresh unread
  rw [same]
  unfold localConfirmationMac
  cases x.spake2Key spake msgs <;> simp

theorem finish_iff {state : σ} (fresh : x.spake2State = some state)
    (unread : x.localConfirmation = none ∧ x.peerExpectedMac = none) (m : Key) (confirmed : PakeConfirmed) :
    (final (readPeerMsg h spake suite) x msgs).finish m.toList = .ok confirmed ↔
      confirmed = ⟨x.peerId⟩ ∧ ∃ key, x.spake2Key spake msgs = some key ∧ x.mac h suite key x.peerConfirmInfoLabel = m := by
  obtain ⟨left,same⟩ := @final_reads σ ρ h spake suite x msgs state fresh unread
  rw [same,finish,if_neg (by simp)]
  cases x.spake2Key spake msgs with
  | none => simp
  | some key =>
    by_cases equal : x.mac h suite key x.peerConfirmInfoLabel = m
    · simp [equal,eq_comm]
    · simp [equal,Vector.toList_inj]

end Runs

/-- The MAC of one exchange is accepted by another exactly when both have the same SPAKE2 key and
belong together, and no exchange accepts its own. -/
theorem confirmation_binds (rngX rngY : ρ) (roleX roleY : PakeRole) (codeX codeY : ValidPairingCode)
    (localX peerX hashX localY peerY hashY : Key) (x y : PakeExchange σ) (msgsX msgsY : List Bytes) (m : Key)
    (startX : startWithRng spake suite rngX roleX codeX localX peerX hashX = .ok x)
    (startY : startWithRng spake suite rngY roleY codeY localY peerY hashY = .ok y)
    (free : ∀ keyX ∈ x.spake2Key spake msgsX, ∀ keyY ∈ y.spake2Key spake msgsY,
      h.CollisionFree (x.keysUsed h suite keyX ++ y.keysUsed h suite keyY)
        (x.inputsUsed h suite keyX ++ y.inputsUsed h suite keyY))
    (sent : (final (readPeerMsg h spake suite) y msgsY).localConfirmationMac = .ok m) :
    (∀ confirmed, (final (readPeerMsg h spake suite) x msgsX).finish m.toList = .ok confirmed ↔
      confirmed = ⟨peerX⟩ ∧
      Matches suite (final (readPeerMsg h spake suite) x msgsX) (final (readPeerMsg h spake suite) y msgsY) ∧
      ∃ key, x.spake2Key spake msgsX = some key ∧ y.spake2Key spake msgsY = some key) ∧
    ∀ own confirmed, (final (readPeerMsg h spake suite) x msgsX).localConfirmationMac = .ok own →
      (final (readPeerMsg h spake suite) x msgsX).finish own.toList ≠ .ok confirmed := by
  obtain ⟨⟨stateX,freshX⟩,unreadX⟩ := startWithRng_fresh startX
  obtain ⟨⟨stateY,freshY⟩,unreadY⟩ := startWithRng_fresh startY
  obtain ⟨keyY,derivedY,macY⟩ := (localConfirmationMac_iff freshY unreadY m).mp sent
  have peer : x.peerId = peerX := by
    cases startX
    rfl
  have same : Matches suite (final (readPeerMsg h spake suite) x msgsX) (final (readPeerMsg h spake suite) y msgsY) ↔
      Matches suite x y := by
    obtain ⟨leftX,readX⟩ := @final_reads σ ρ h spake suite x msgsX stateX freshX unreadX
    obtain ⟨leftY,readY⟩ := @final_reads σ ρ h spake suite y msgsY stateY freshY unreadY
    rw [readX,readY]
    exact ⟨fun matched => { matched with },fun matched => { matched with }⟩
  refine ⟨fun confirmed => ?_,fun own confirmed derived accepted => ?_⟩
  · rw [finish_iff freshX unreadX,same,peer,derivedY]
    refine and_congr_right fun _ => ?_
    constructor
    · rintro ⟨keyX,derivedX,macX⟩
      obtain ⟨rfl,matched⟩ := matches_of_mac (free keyX derivedX keyY derivedY) (List.subset_append_left _ _)
        (List.subset_append_left _ _) (List.subset_append_right _ _) (List.subset_append_right _ _) (macX.trans macY.symm)
      exact ⟨matched,keyX,derivedX,rfl⟩
    · rintro ⟨matched,key,derivedX,⟨⟩⟩
      exact ⟨keyY,derivedX,(mac_congr (confirmationInfo_eq_iff.mpr matched)).trans macY⟩
  · obtain ⟨keyX,derivedX,macX⟩ := (localConfirmationMac_iff freshX unreadX own).mp derived
    obtain ⟨_,keyX',derivedX',expected⟩ := (finish_iff freshX unreadX own confirmed).mp accepted
    cases derivedX.symm.trans derivedX'
    have reflected := matches_of_mac (free keyX derivedX keyY derivedY) (List.subset_append_left _ _)
      (List.subset_append_left _ _) (List.subset_append_left _ _) (List.subset_append_left _ _) (expected.trans macX.symm)
    exact reflected.2.roles rfl

end PakeExchange

namespace Transparent

/-- An HKDF of one byte: the first of the key, the role letter of the label and the length of the info. -/
def byteHkdf : Hkdf where
  extract ikm := Vector.replicate 32 (ikm.getD 0 0)
  okm prk info n := Vector.replicate n (prk.getD 0 0 + info.getD 20 0 + UInt8.ofNat info.length)

/-- A SPAKE2 whose key is the code. -/
def spake2 : Spake2 Bytes Unit where
  startA password _ _ _ := (password,65 :: List.replicate 32 0)
  startB password _ _ _ := (password,66 :: List.replicate 32 0)
  finish password _ := some (password ++ List.replicate 31 0)

def pairingCode : ValidPairingCode := ⟨['7'],100⟩

def pakeSuite : IdentitySuite := ⟨fun _ _ _ => true,fun bytes => vectorAt 32 bytes 0⟩

def pakeInitiator : PakeExchange Bytes where
  spake2State := some (Text.asBytes ['7'])
  outbound := 65 :: List.replicate 32 0
  peerExpectedMac := none
  role := .initiator
  handshakeHash := Vector.replicate 32 3
  localId := Vector.replicate 32 1
  peerId := Vector.replicate 32 2
  localConfirmation := none

def pakeResponder : PakeExchange Bytes where
  spake2State := some (Text.asBytes ['7'])
  outbound := 66 :: List.replicate 32 0
  peerExpectedMac := none
  role := .responder
  handshakeHash := Vector.replicate 32 3
  localId := Vector.replicate 32 2
  peerId := Vector.replicate 32 1
  localConfirmation := none

def pakeKey : Bytes := Text.asBytes ['7'] ++ List.replicate 31 0

def responderMac : Key := pakeResponder.mac byteHkdf pakeSuite pakeKey pakeConfirmResponderInfo

end Transparent

namespace PakeExchange

open Machine Transparent

theorem paired_devices_confirm :
    (final (readPeerMsg byteHkdf spake2 pakeSuite) pakeInitiator [pakeResponder.outbound]).finish responderMac.toList =
      .ok ⟨Vector.replicate 32 2⟩ := by
  have free : byteHkdf.CollisionFree (pakeInitiator.keysUsed byteHkdf pakeSuite pakeKey ++
      pakeResponder.keysUsed byteHkdf pakeSuite pakeKey)
      (pakeInitiator.inputsUsed byteHkdf pakeSuite pakeKey ++ pakeResponder.inputsUsed byteHkdf pakeSuite pakeKey) :=
    ⟨by decide +kernel,by decide +kernel⟩
  have binds := confirmation_binds byteHkdf spake2 pakeSuite () () .initiator .responder pairingCode pairingCode _ _ _ _ _ _
    pakeInitiator pakeResponder [pakeResponder.outbound] [pakeInitiator.outbound] responderMac rfl rfl
    (by rintro _ ⟨⟩ _ ⟨⟩; exact free) (by decide +kernel)
  apply (binds.1 _).mpr
  exact ⟨rfl,⟨by decide,by decide +kernel,by decide +kernel,by decide +kernel⟩,pakeKey,rfl,rfl⟩

end PakeExchange

end Streamhaul
