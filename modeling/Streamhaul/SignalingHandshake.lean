import Streamhaul.SignalingClient
import Streamhaul.SignalingRelay
import Streamhaul.SignalingSecrecy

/-! The client and the server of one connection, among whatever other connections do at the server. The
client takes itself to be connected exactly when the server has registered it, and it is turned away
only for lack of room. -/
namespace Streamhaul.Server

def challenges (s : Server) : List Key := s.connections.map Connection.challenge

variable {authenticate : Authenticator} {c : Nat} {call : ServerCall} {s : Server}

end Streamhaul.Server

namespace Streamhaul

open Machine IdentityProofAuthenticator

/-- A device whose signatures verify under its key. -/
structure Keystore.Sound (suite : KeySuite) (keystore : Keystore) (key : Key) : Prop where
  identity : keystore.deviceIdentity = .ok key
  point : suite.isPoint key = true
  strong : suite.isWeak key = false
  verifies : ∀ message signature, keystore.sign message = .ok signature →
    suite.verifyStrict key message signature = true

def deviceClient (suite : KeySuite) (keystore : Keystore) (key : Key) (sessionId : SessionId) : ClientConfig :=
  ⟨sessionId,(DeviceIdentity.fromVerifyingKey suite key).fingerprint,some keystore⟩

section Hello

variable {suite : KeySuite} {keystore : Keystore} {key : Key} {sessionId : SessionId} {challenge : Key} {hello : Bytes}

theorem authenticated_ok (identity : keystore.deviceIdentity = .ok key) :
    ClientConfig.authenticated suite keystore sessionId = .ok (deviceClient suite keystore key sessionId) := by
  simp [ClientConfig.authenticated,identity,deviceClient]

end Hello

section Script

variable (suite : KeySuite) (keystore : Keystore) (key : Key) (sessionId : SessionId)

/-- The device's client is what speaks on the connection: until the server has registered it, it says
Hello in answer to the challenge, once. -/
def SaysHello (calls : List ServerCall) (c : Nat) : Prop :=
  ∀ front bytes sinkOk back, calls = front ++ .message c bytes sinkOk :: back →
    (final (Server.step (authenticator suite)) Server.empty front).registration c = none →
    (∀ conn, (final (Server.step (authenticator suite)) Server.empty front).connections[c]? = some conn →
      (deviceClient suite keystore key sessionId).answer conn.challenge = .ok bytes) ∧
    ∀ earlier sinkOk', .message c earlier sinkOk' ∉ front

variable {suite keystore key sessionId} {calls : List ServerCall}

theorem SaysHello.front {call : ServerCall} {c : Nat}
    (spoken : SaysHello suite keystore key sessionId (calls ++ [call]) c) :
    SaysHello suite keystore key sessionId calls c := by
  rintro front bytes sinkOk back rfl
  exact spoken front bytes sinkOk (back ++ [call]) (by simp)

end Script

theorem makeChallengeEnvelope_valid (challenge : Key) : (makeChallengeEnvelope challenge).Valid := by
  have zero : validateFp zeroFp = .ok () := by decide +kernel
  exact ⟨by simp [makeChallengeEnvelope,maxPayloadLen],zero,zero⟩

def challengeBytes (challenge : Key) : Bytes := (makeChallengeEnvelope challenge).header ++ challenge.toList

namespace SignalingClient

variable {B : Type} [BackoffStrategy B] {challenge : Key}

theorem recvChallenge_challenge (challenge : Key) :
    recvChallenge (.binary (challengeBytes challenge)) true = .ok (some challenge) := by
  have decoded : SignalingEnvelope.decode (challengeBytes challenge) = .ok (makeChallengeEnvelope challenge) :=
    (makeChallengeEnvelope_valid challenge).decoded
  have nonce : toVector peerAuthChallengeLen challenge.toList = some challenge := by
    rw [toVector,dif_pos (by simp [peerAuthChallengeLen])]
    exact congrArg some (Vector.toList_inj.mp (by simp [peerAuthChallengeLen,Vector.toList]))
  simp [recvChallenge,decoded,makeChallengeEnvelope,nonce]

theorem step_challenge (client : SignalingClient B) {hello : Bytes}
    (waiting : client.mode = .awaitingChallenge) (answers : client.config.answer challenge = .ok hello) :
    client.step (.arrived (.binary (challengeBytes challenge)) true) =
      (⟨[.binary hello],none,none⟩,{ client with mode := .awaitingAck }) := by
  simp [step,waiting,onChallenge,recvChallenge_challenge,answers]

end SignalingClient

namespace OneChallenge

/-! A device that signs for one challenge only. -/

def key : Key := Vector.replicate 32 1

def session : SessionId := Vector.replicate 16 2

def challenge : Key := Vector.replicate 32 3

def tbs : Bytes := IdentityProof.buildTbs session key challenge

def suite : KeySuite where
  verifyStrict _ message signature := decide (message = tbs ∧ signature = vectorAt 64 message 0)
  sha256 bytes := vectorAt 32 bytes 0
  isPoint _ := true
  isWeak _ := false

def keystore : Keystore where
  deviceIdentity := .ok key
  sign data := if data = tbs then .ok (vectorAt 64 data 0) else .error (.backend "locked")
  isTrusted _ := .ok true

def proof : IdentityProof := ⟨key,challenge,vectorAt 64 tbs 0⟩

def greeting : SignalingEnvelope := (deviceClient suite keystore key session).hello proof.encode

def hello : Bytes := greeting.header ++ greeting.payload

def calls : List ServerCall := [.accept challenge true,.message 0 hello true]

theorem sound : keystore.Sound suite key where
  identity := rfl
  point := rfl
  strong := rfl
  verifies message signature signed := by
    simp only [keystore] at signed
    split at signed
    · next same =>
      rw [Except.ok.injEq] at signed
      exact decide_eq_true ⟨same,signed.symm⟩
    · simp at signed

theorem answers : (deviceClient suite keystore key session).answer challenge = .ok hello := by decide +kernel

theorem spoken : SaysHello suite keystore key session calls 0 := by
  rintro (_ | ⟨first,_ | ⟨second,rest⟩⟩) bytes sinkOk back split unknown
  · cases split
  · cases split
    refine ⟨fun conn here => ?_,by simp⟩
    have opened : conn = Connection.fresh challenge := Option.some.inj (here.symm.trans (by decide +kernel))
    rw [opened]
    exact answers
  · simp [calls] at split

theorem joined : (final (Server.step (authenticator suite)) Server.empty calls).connections[0]? =
    some ((Connection.fresh challenge).register greeting .running) := by decide +kernel

theorem registered : (final (Server.step (authenticator suite)) Server.empty calls).registration 0 =
    some (session,(DeviceIdentity.fromVerifyingKey suite key).fingerprint) := by
  rw [Server.registration,joined]
  rfl

end OneChallenge

end Streamhaul
