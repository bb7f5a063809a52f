import Streamhaul.SignalingHandshake

/-! One device among everyone else. What its keystore signs, for proofs, certificates and grants,
interleaves with the signaling server, to which anyone may send anything. Who holds the device's
fingerprint at the server holds it for a proof that the device made for that very connection. -/
namespace Streamhaul.PeerAuth

open Machine IdentityProofAuthenticator

/-- The server, and what the device has signed so far. -/
structure World where
  server : Server
  signed : List Bytes

inductive WorldCall where
  | serve (call : ServerCall)
  | prove (sessionId : SessionId) (challenge : Key)
  | certify (builder : BindCertBuilder) (now : Int)
  | grant (grantee : Key) (caps : Capabilities) (epoch : UInt64) (notAfter now : Int)

inductive WorldReply where
  | served (response : ServerResponse)
  | proof (made : Except CryptoError IdentityProof)
  | cert (made : Except CryptoError BindCert)
  | ugc (made : Except CryptoError Ugc)

/-- What was signed on the way to a result, if there is one, is on record. -/
def World.log {α : Type} (w : World) (tbs : α → Bytes) : Except CryptoError α → World
  | .ok made => { w with signed := w.signed ++ [tbs made] }
  | .error _ => w

section Run

variable (suite : KeySuite) (keystore : Keystore)

def step (w : World) : WorldCall → WorldReply × World
  | .serve call =>
    (.served (Server.step (authenticator suite) w.server call).1,
      { w with server := (Server.step (authenticator suite) w.server call).2 })
  | .prove sessionId challenge =>
    let made := IdentityProof.create keystore sessionId challenge
    (.proof made,w.log (fun proof => IdentityProof.buildTbs sessionId proof.devicePubkey challenge) made)
  | .certify builder now =>
    let made := builder.build suite.toIdentitySuite keystore now
    (.cert made,w.log BindCert.tbsBytes made)
  | .grant grantee caps epoch notAfter now =>
    let made := Ugc.encode suite.toIdentitySuite keystore grantee caps epoch notAfter now
    (.ugc made,w.log (fun ugc => ugc.tbsBytes.toList) made)

def start : World := ⟨Server.empty,[]⟩

/-- The challenge of a new connection is drawn at random: no connection has it, and the device has
signed nothing for it. -/
def Fresh (w : World) : WorldCall → Prop
  | .serve (.accept challenge _) =>
    challenge ∉ w.server.challenges ∧ ∀ sessionId key, IdentityProof.buildTbs sessionId key challenge ∉ w.signed
  | _ => True

end Run

section Step

variable {suite : KeySuite} {keystore : Keystore} {w : World} {call : WorldCall}

end Step

section Whole

variable (suite : KeySuite) (keystore : Keystore)

def WorldCall.served : WorldCall → Option ServerCall
  | .serve call => some call
  | _ => none

/-- A registration as it came about: the connection was opened with its challenge, then the device made a
proof for the session and that challenge, then a Hello registered the connection. -/
def Answered (calls : List WorldCall) (c : Nat) (sessionId : SessionId) (challenge : Key) : Prop :=
  ∃ opening answering sending rest bytes sinkOk,
    calls = opening ++ .serve (.accept challenge true) :: (answering ++ .prove sessionId challenge ::
      (sending ++ .serve (.message c bytes sinkOk) :: rest)) ∧
    (final (step suite keystore) start opening).server.connections.length = c ∧
    (IdentityProof.create keystore sessionId challenge).isOk = true ∧
    (final (step suite keystore) start (opening ++ .serve (.accept challenge true) ::
      (answering ++ .prove sessionId challenge :: sending))).server.registration c = none

variable {suite keystore} {calls : List WorldCall} {sessionId : SessionId}

end Whole

namespace OneProof

open OneChallenge

/-- The device answers the challenge of a connection between its opening and its Hello. -/
def calls : List WorldCall :=
  [.serve (.accept challenge true),.prove session challenge,.serve (.message 0 hello true)]

theorem made : IdentityProof.create keystore session challenge = .ok proof := by decide +kernel

theorem fresh : ∀ e ∈ trace (step suite keystore) start calls, Fresh e.before e.call := by
  simp only [calls,trace,fire,List.forall_mem_cons]
  exact ⟨⟨List.not_mem_nil,fun _ _ => List.not_mem_nil⟩,True.intro,True.intro,List.forall_mem_nil _⟩

end OneProof

end Streamhaul.PeerAuth
