import Streamhaul.NoiseHandshake

/-! Completion of a Noise handshake: a failed call poisons it for good, and an outcome rests on a
certificate that was read, checked and is trusted. -/
namespace Streamhaul

inductive NoiseCall where
  | writeMessage
  | readMessage (msg : Bytes) (now : Int)

abbrev NoiseResponse := Except CryptoError (Option Bytes)

namespace NoiseHandshake

open Machine

section Steps

variable {σ : Type} (snow : Snow σ) (suite : NoiseSuite)

def step (hs : NoiseHandshake σ) : NoiseCall → NoiseResponse × NoiseHandshake σ
  | .writeMessage => (hs.writeMessage snow).map (·.map some) id
  | .readMessage msg now => (hs.readMessage snow suite msg now).map (·.map fun _ => none) id

/-- The call read a payload of exactly this identity and certificate, and the certificate passed
every check against the remote static and the clock of the call. -/
def Vetted (before : NoiseHandshake σ) (call : NoiseCall) (peerIdentity : Key) (cert : BindCert) : Prop :=
  ∃ msg now payload state live, call = .readMessage msg now ∧ snow.readMessage before.state msg = (some payload,state) ∧
    payload = peerIdentity.toList ++ cert.encode ∧ BindCert.decode (payload.drop 32) = .ok cert ∧
    snow.getRemoteStatic state = some live.toList ∧ cert.Verified suite.toIdentitySuite peerIdentity live now

/-- What a call does to the handshake. -/
inductive Advances (hs : NoiseHandshake σ) (call : NoiseCall) : NoiseResponse × NoiseHandshake σ → Prop
  | aborted (failed : hs.failed = true) :
      Advances hs call (.error (.handshakeFailed "handshake already aborted"),hs)
  | poisoned (e : CryptoError) (state : σ) (alive : hs.failed = false) :
      Advances hs call (.error e,{ hs with state := state, failed := true })
  | moved (message : Option Bytes) (state : σ) (idx : Nat) (alive : hs.failed = false) :
      Advances hs call (.ok message,{ hs with state := state, messageIdx := idx })
  | vetted (state : σ) (idx : Nat) (peerIdentity : Key) (cert : BindCert) (alive : hs.failed = false)
      (checks : Vetted snow suite hs call peerIdentity cert) :
      Advances hs call (.ok none,{ hs with
        state := state, messageIdx := idx, peerIdentity := some peerIdentity, peerBindCert := some cert })

variable {snow suite} {hs : NoiseHandshake σ}

theorem toVector_ok {n : Nat} {bytes : Bytes} {v : Vector UInt8 n} (found : toVector n bytes = some v) : v.toList = bytes := by
  unfold toVector at found
  split at found
  · cases found
    simp
  · cases found

theorem getRemoteStaticNow_ok {live : Key} (found : hs.getRemoteStaticNow snow = .ok live) :
    snow.getRemoteStatic hs.state = some live.toList := by
  unfold getRemoteStaticNow at found
  cases static : snow.getRemoteStatic hs.state with
  | none => simp [static] at found
  | some bytes =>
    cases width : toVector 32 bytes with
    | none => simp [static,width] at found
    | some key =>
      simp only [static,width,Except.ok.injEq] at found
      rw [← found,toVector_ok width]

theorem fromPublicKeyBytes_ok {bytes identity : Key} (found : suite.fromPublicKeyBytes bytes = .ok identity) :
    identity = bytes := by
  unfold NoiseSuite.fromPublicKeyBytes at found
  split_ifs at found
  cases found
  rfl

theorem readMessageBindCert_ok {payload : Bytes} {now : Int} {after : NoiseHandshake σ}
    (accepted : hs.readMessageBindCert snow suite payload now = .ok after) :
    after = hs ∨ ∃ peerIdentity cert live, after = { hs with peerIdentity := some peerIdentity, peerBindCert := some cert } ∧
      payload = peerIdentity.toList ++ cert.encode ∧ BindCert.decode (payload.drop 32) = .ok cert ∧
      snow.getRemoteStatic hs.state = some live.toList ∧ cert.Verified suite.toIdentitySuite peerIdentity live now := by
  unfold readMessageBindCert at accepted
  by_cases here : hs.messageIdx = hs.receiveAt
  · rw [if_pos here] at accepted
    by_cases short : payload.length < 32
    · simp [short] at accepted
    rw [if_neg short] at accepted
    cases identity : suite.fromPublicKeyBytes (vectorAt 32 payload 0) with
    | error e => simp [identity] at accepted
    | ok peerIdentity =>
      cases decoded : BindCert.decode (payload.drop 32) with
      | error e => simp [identity,decoded] at accepted
      | ok cert =>
        cases static : hs.getRemoteStaticNow snow with
        | error e => simp [identity,decoded,static] at accepted
        | ok live =>
          cases verified : cert.verify suite.toIdentitySuite peerIdentity live now with
          | error e => simp [identity,decoded,static,verified] at accepted
          | ok checked =>
            simp only [identity,decoded,static,verified,Except.ok.injEq] at accepted
            have key : peerIdentity.toList = payload.take 32 := by
              rw [fromPublicKeyBytes_ok identity,toList_vectorAt (by omega),List.drop_zero]
            refine .inr ⟨peerIdentity,cert,live,accepted.symm,?_,rfl,getRemoteStaticNow_ok static,
              BindCert.verify_ok verified⟩
            rw [key,BindCert.encode_of_decode decoded,List.take_append_drop]
  · rw [if_neg here] at accepted
    cases accepted
    exact .inl rfl

theorem step_aborted (call : NoiseCall) (failed : hs.failed = true) :
    hs.step snow suite call = (.error (.handshakeFailed "handshake already aborted"),hs) := by
  cases call with
  | writeMessage =>
    have same : hs.writeMessage snow = (.error (.handshakeFailed "handshake already aborted"),hs) := if_pos failed
    rw [step,same]
    rfl
  | readMessage msg now =>
    have same : hs.readMessage snow suite msg now = (.error (.handshakeFailed "handshake already aborted"),hs) :=
      if_pos failed
    rw [step,same]
    rfl

theorem writeMessage_advances (alive : hs.failed = false) :
    Advances snow suite hs .writeMessage (hs.step snow suite .writeMessage) := by
  rw [step,writeMessage,if_neg (by simp [alive])]
  generalize snow.writeMessage hs.state hs.nextPayload = written
  obtain ⟨buf,state⟩ := written
  cases buf with
  | none => exact .poisoned _ state alive
  | some bytes => exact .moved (some bytes) state _ alive

theorem readMessage_advances (msg : Bytes) (now : Int) (alive : hs.failed = false) :
    Advances snow suite hs (.readMessage msg now) (hs.step snow suite (.readMessage msg now)) := by
  rw [step,readMessage,if_neg (by simp [alive])]
  rcases read : snow.readMessage hs.state msg with ⟨payload,state⟩
  cases payload with
  | none => exact .poisoned _ state alive
  | some payload =>
    dsimp only
    cases accepted : readMessageBindCert snow suite { hs with state := state } payload now with
    | error e => exact .poisoned e state alive
    | ok after =>
      rcases readMessageBindCert_ok accepted with rfl | ⟨peerIdentity,cert,live,rfl,whole,decoded,static,verified⟩
      · exact .moved none state _ alive
      · exact .vetted state _ peerIdentity cert alive ⟨msg,now,payload,state,live,rfl,read,whole,decoded,static,verified⟩

variable (snow suite hs) in
theorem step_advances (call : NoiseCall) : Advances snow suite hs call (hs.step snow suite call) := by
  by_cases failed : hs.failed = true
  · rw [step_aborted call failed]
    exact .aborted failed
  · have alive := Bool.eq_false_iff.mpr failed
    cases call with
    | writeMessage => exact writeMessage_advances alive
    | readMessage msg now => exact readMessage_advances msg now alive

end Steps

section Runs

variable {σ : Type} {snow : Snow σ} {suite : NoiseSuite} {hs : NoiseHandshake σ}

def Fails (e : Event (NoiseHandshake σ) NoiseCall NoiseResponse) : Prop := ∃ reason, e.response = .error reason

/-- The flag stands exactly after a failure, and a peer on record was vetted by one of the calls. -/
structure Sound (snow : Snow σ) (suite : NoiseSuite) (history : List (Event (NoiseHandshake σ) NoiseCall NoiseResponse))
    (hs : NoiseHandshake σ) : Prop where
  poisoned : hs.failed = true ↔ ∃ e ∈ history, Fails e
  vetted : ∀ peerIdentity cert, hs.peerIdentity = some peerIdentity → hs.peerBindCert = some cert →
    ∃ e ∈ history, Vetted snow suite e.before e.call peerIdentity cert

theorem sound_step {history : List (Event (NoiseHandshake σ) NoiseCall NoiseResponse)}
    (sound : Sound snow suite history hs) (call : NoiseCall) :
    Sound snow suite (history ++ [fire (step snow suite) hs call]) (hs.step snow suite call).2 := by
  have advances := hs.step_advances snow suite call
  unfold fire
  generalize hs.step snow suite call = result at *
  have earlier : ∀ peerIdentity cert, hs.peerIdentity = some peerIdentity → hs.peerBindCert = some cert →
      ∃ e ∈ history ++ [⟨hs,call,result.1,result.2⟩], Vetted snow suite e.before e.call peerIdentity cert := by
    intro peerIdentity cert known given
    obtain ⟨e,member,vetted⟩ := sound.vetted peerIdentity cert known given
    exact ⟨e,List.mem_append_left _ member,vetted⟩
  have failing : (∃ e ∈ history ++ [⟨hs,call,result.1,result.2⟩], Fails e) ↔
      hs.failed = true ∨ ∃ reason, result.1 = .error reason := by
    rw [sound.poisoned]
    simp [Fails,or_and_right,exists_or]
  cases advances with
  | aborted failed => exact ⟨⟨fun _ => failing.mpr (.inl failed),fun _ => failed⟩,earlier⟩
  | poisoned e state alive => exact ⟨⟨fun _ => failing.mpr (.inr ⟨e,rfl⟩),fun _ => rfl⟩,earlier⟩
  | moved message state idx alive =>
    refine ⟨?_,earlier⟩
    rw [failing]
    simp
  | vetted state idx peerIdentity cert alive checks =>
    refine ⟨?_,?_⟩
    · rw [failing]
      simp
    · rintro _ _ ⟨⟩ ⟨⟩
      exact ⟨_,List.mem_append_right _ List.mem_cons_self,checks⟩

theorem sound_run (calls : List NoiseCall) (initial : Sound snow suite [] hs) :
    Sound snow suite (trace (step snow suite) hs calls) (final (step snow suite) hs calls) := by
  have run := history_invariant (step snow suite) some (fun _ _ => True) (Sound snow suite)
    (fun _ _ call _ sound => sound_step sound call) [] hs calls initial (fun _ _ => trivial)
  rwa [List.nil_append,List.filterMap_some] at run

theorem newInner_sound {keystore : Keystore} {localStatic : Key} {peerStaticPub : Option Key} {sessionContext : Bytes}
    {dtlsCommitment : Option DtlsCommitment} {now : Int} {pattern : NoisePattern} {role : HandshakeRole}
    (built : newInner snow suite keystore localStatic peerStaticPub sessionContext dtlsCommitment now pattern role = .ok hs) :
    Sound snow suite [] hs := by
  unfold newInner at built
  split at built
  · cases built
  · split at built
    · cases built
    · split at built
      · cases built
      · cases built
        refine ⟨by simp,?_⟩
        intro _ _ known
        cases known

theorem poisoned_run (failed : hs.failed = true) (calls : List NoiseCall) :
    (∀ e ∈ trace (step snow suite) hs calls, Fails e) ∧ final (step snow suite) hs calls = hs := by
  induction calls with
  | nil => exact ⟨fun _ member => absurd member List.not_mem_nil,rfl⟩
  | cons call rest ih =>
    have same := @step_aborted σ snow suite hs call failed
    rw [trace,final,same]
    refine ⟨?_,ih.2⟩
    intro e member
    rcases List.mem_cons.mp member with rfl | later
    · exact ⟨_,congrArg Prod.fst same⟩
    · exact ih.1 e later

theorem complete_ok {h : Hkdf} {keystore : Keystore} {outcome : Outcome}
    (completed : hs.complete snow h keystore = .ok outcome) :
    hs.failed = false ∧ hs.peerIdentity = some outcome.peerIdentity ∧ hs.peerBindCert = some outcome.peerBindCert ∧
      keystore.isTrusted outcome.peerIdentity = .ok true := by
  by_cases failed : hs.failed = true
  · simp [complete,failed] at completed
  by_cases unfinished : snow.isHandshakeFinished hs.state = false
  · simp [complete,failed,unfinished] at completed
  rw [complete,if_neg failed,if_neg unfinished] at completed
  cases identity : hs.peerIdentity with
  | none => simp [identity] at completed
  | some peerIdentity =>
    cases cert : hs.peerBindCert with
    | none => simp [identity,cert] at completed
    | some peerBindCert =>
      cases trusted : keystore.isTrusted peerIdentity with
      | error e => simp [identity,cert,trusted] at completed
      | ok answer =>
        cases answer with
        | false => simp [identity,cert,trusted] at completed
        | true =>
          cases hash : toVector 32 (snow.getHandshakeHash hs.state) with
          | none => simp [identity,cert,trusted,hash] at completed
          | some handshakeHash =>
            simp only [identity,cert,trusted,hash] at completed
            by_cases transport : snow.intoTransportMode hs.state = false
            · simp [transport] at completed
            rw [if_neg transport] at completed
            cases completed
            exact ⟨Bool.eq_false_iff.mpr failed,rfl,rfl,trusted⟩

end Runs

/-- After a failed call every later call and the completion fail; and an outcome means that no
call failed and that the peer is trusted and was vetted by one of the messages read. -/
theorem completion_safe {σ : Type} (snow : Snow σ) (suite : NoiseSuite) (h : Hkdf) (keystore store : Keystore)
    (localStatic : Key) (peerStaticPub : Option Key) (sessionContext : Bytes) (dtlsCommitment : Option DtlsCommitment)
    (now : Int)
    (pattern : NoisePattern) (role : HandshakeRole) (hs : NoiseHandshake σ)
    (built : newInner snow suite keystore localStatic peerStaticPub sessionContext dtlsCommitment now pattern role = .ok hs)
    (earlier later : List NoiseCall) :
    ((∃ e ∈ trace (step snow suite) hs earlier, Fails e) →
      (∀ e ∈ trace (step snow suite) (final (step snow suite) hs earlier) later, Fails e) ∧
      (final (step snow suite) hs (earlier ++ later)).isFinished snow = false ∧
      ∃ reason, (final (step snow suite) hs (earlier ++ later)).complete snow h store = .error reason) ∧
    ∀ outcome, (final (step snow suite) hs earlier).complete snow h store = .ok outcome →
      (∀ e ∈ trace (step snow suite) hs earlier, ¬Fails e) ∧ store.isTrusted outcome.peerIdentity = .ok true ∧
      ∃ e ∈ trace (step snow suite) hs earlier, Vetted snow suite e.before e.call outcome.peerIdentity
        outcome.peerBindCert := by
  have sound := sound_run earlier (newInner_sound built)
  constructor
  · intro failure
    have failed := sound.poisoned.mpr failure
    obtain ⟨fails,same⟩ := @poisoned_run σ snow suite _ failed later
    rw [final_append,same]
    refine ⟨fails,by simp [isFinished,failed],.handshakeFailed "handshake already aborted",?_⟩
    exact if_pos failed
  · intro outcome completed
    obtain ⟨alive,identity,cert,trusted⟩ := complete_ok completed
    refine ⟨?_,trusted,sound.vetted _ _ identity cert⟩
    intro e member fails
    have failed := sound.poisoned.mpr ⟨e,member,fails⟩
    exact absurd failed (Bool.eq_false_iff.mp alive)

end NoiseHandshake

namespace Transparent

/-- A Noise state that counts messages and passes every payload through. -/
def noiseSnow : Snow Nat where
  build _ _ _ _ _ := some 0
  writeMessage n payload := (some payload,n + 1)
  readMessage n msg := (some msg,n + 1)
  isHandshakeFinished n := 2 ≤ n
  getRemoteStatic _ := some (List.replicate 32 7)
  getHandshakeHash _ := List.replicate 32 3
  intoTransportMode _ := true

/-- Every signature holds, and the digest of a key is the key. -/
def noiseSuite : NoiseSuite where
  verifyStrict _ _ _ := true
  sha256 bytes := vectorAt 32 bytes 0
  isPoint _ := true
  isWeak _ := false
  x25519Public key := key

def noiseStore : Keystore := ⟨.ok (Vector.replicate 32 1),fun _ => .ok (Vector.replicate 64 0),fun _ => .ok true⟩

def peerKey : Key := Vector.replicate 32 9

def peerCert : BindCert :=
  let fields : TbsFields := ⟨peerKey,Vector.replicate 32 7,dtlsFprAlgNone,Vector.replicate 32 0,[],3600,0⟩
  ⟨BindCert.buildTbs fields,Vector.replicate 64 0,fields⟩

/-- An IK initiator: it writes its message and reads the answer with the peer's certificate. -/
def noiseStart : Except CryptoError (NoiseHandshake Nat) :=
  NoiseHandshake.newInner noiseSnow noiseSuite noiseStore (Vector.replicate 32 2) none [] none 10 .ik .initiator

def noiseCalls : List NoiseCall := [.writeMessage,.readMessage (peerKey.toList ++ peerCert.encode) 10]

def noiseOutcome : NoiseHandshake.Outcome where
  transport := ⟨hkdf.extract (List.replicate 32 3)⟩
  role := .initiator
  handshakeHash := Vector.replicate 32 3
  peerIdentity := peerKey
  peerBindCert := peerCert
  pattern := .ik

end Transparent

namespace NoiseHandshake

open Machine Transparent

theorem trusted_peer_completes :
    ∃ hs, noiseStart = .ok hs ∧
      (final (step noiseSnow noiseSuite) hs noiseCalls).complete noiseSnow hkdf noiseStore = .ok noiseOutcome ∧
      ∃ e ∈ trace (step noiseSnow noiseSuite) hs noiseCalls, Vetted noiseSnow noiseSuite e.before e.call peerKey peerCert := by
  cases built : noiseStart with
  | error e =>
    have started : noiseStart.isOk = true := by decide +kernel
    rw [built] at started
    cases started
  | ok hs =>
    have completed : noiseStart.map (fun hs =>
        (final (step noiseSnow noiseSuite) hs noiseCalls).complete noiseSnow hkdf noiseStore) = .ok (.ok noiseOutcome) := by
      decide +kernel
    rw [built] at completed
    have outcome := Except.ok.inj completed
    refine ⟨hs,rfl,outcome,?_⟩
    exact ((completion_safe noiseSnow noiseSuite hkdf noiseStore noiseStore _ _ _ _ _ _ _ hs built noiseCalls []).2
      noiseOutcome outcome).2.2

end NoiseHandshake

end Streamhaul
