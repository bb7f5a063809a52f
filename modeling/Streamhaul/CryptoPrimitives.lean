import Streamhaul.Bytes

/-! The external primitives of the channel layer and the typed error of the crypto
crate. HKDF-SHA256 and the AEAD are parameters; only their documented length rules
are fixed, so every result holds for any functions of these shapes. -/
namespace Streamhaul

inductive CryptoError where
  | signature
  | untrustedPeer
  | malformedKey (reason : String)
  | malformedSignature (reason : String)
  | backend (message : String)
  | malformedBindCert (reason : String)
  | noiseStaticMismatch
  | dtlsBindingMissing
  | bindCertExpired
  | bindCertNotYetValid
  | handshakeFailed (reason : String)
  | downgrade
  | sasMismatch
  | pakeConfirmationFailed
  | pairingCodeExpired
  | malformedPakeMessage (reason : String)
  | reTrustAfterRevoke
  | aeadFailure
  | replayedFrame
  | epochTooFarAhead
  | nonceExhausted
  | malformedChannelFrame (reason : String)
  | malformedUgc (reason : String)
  | ugcBadSignature
  | ugcWrongGrantee
  | ugcExpired
  | ugcRevoked
  deriving DecidableEq, Repr

abbrev Key := Vector UInt8 32

/-- ASCII bytes of a literal; protocol labels contain nothing else. -/
def ascii (text : String) : Bytes := text.toList.map (fun c => UInt8.ofNat c.toNat)

/-- `okm` is the unbounded output stream; `expand` adds the RFC 5869 length check. -/
structure Hkdf where
  extract : Bytes → Key
  okm : Bytes → Bytes → (length : Nat) → Vector UInt8 length

/-- `from_prk` rejects only a pseudo-random key shorter than one hash output. -/
def Hkdf.fromPrk (prk : Bytes) : Option Bytes := if prk.length < 32 then none else some prk

def Hkdf.expand (h : Hkdf) (prk info : Bytes) (length : Nat) : Option (Vector UInt8 length) :=
  if 255 * 32 < length then none else some (h.okm prk info length)

@[simp] theorem Hkdf.fromPrk_key (k : Key) : Hkdf.fromPrk k.toList = some k.toList := by
  simp [Hkdf.fromPrk]

@[simp] theorem Hkdf.expand_key (h : Hkdf) (prk info : Bytes) :
    h.expand prk info 32 = some (h.okm prk info 32) := by
  simp [Hkdf.expand]

/-- Arguments are key, nonce, associated data and message. Either direction may fail. -/
structure Aead where
  encrypt : Key → Bytes → Bytes → Bytes → Option Bytes
  decrypt : Key → Bytes → Bytes → Bytes → Option Bytes

/-- What a receiver relies on: decryption undoes encryption under equal key, nonce
and associated data, and the tag adds sixteen bytes. -/
structure Aead.Correct (aead : Aead) : Prop where
  opens : ∀ key nonce aad message sealed,
    aead.encrypt key nonce aad message = some sealed → aead.decrypt key nonce aad sealed = some message
  overhead : ∀ key nonce aad message sealed,
    aead.encrypt key nonce aad message = some sealed → sealed.length = message.length + 16

/-- The cipher takes this message under every key, nonce and associated data. -/
def Aead.Accepts (aead : Aead) (message : Bytes) : Prop :=
  ∀ key nonce aad, (aead.encrypt key nonce aad message).isSome

namespace Transparent

/-! Executable stand-ins for running the model: bytewise sums for HKDF, and a cipher
that leaves the message in clear, with the tag length and the message limit of
ChaCha20-Poly1305 (`2^32 - 1` blocks of 64 bytes). -/

def hkdf : Hkdf where
  extract ikm := Vector.ofFn (fun i => ikm.getD i.val 0)
  okm prk info _ := Vector.ofFn (fun i => prk.getD i.val 0 + info.getD i.val 0)

def aead : Aead where
  encrypt key _ _ message :=
    if u32Max ≤ message.length / 64 then none else some (message ++ key.toList.take 16)
  decrypt key _ _ sealed :=
    if sealed.length < 16 then none
    else if sealed.drop (sealed.length - 16) = key.toList.take 16 then
      some (sealed.take (sealed.length - 16))
    else none

theorem aead_correct : aead.Correct := by
  constructor
  · intro key nonce aad message sealed encrypted
    simp only [aead,Option.ite_none_left_eq_some,Option.some.injEq] at encrypted
    obtain ⟨-,rfl⟩ := encrypted
    simp [aead]
  · intro key nonce aad message sealed encrypted
    simp only [aead,Option.ite_none_left_eq_some,Option.some.injEq] at encrypted
    obtain ⟨-,rfl⟩ := encrypted
    simp

theorem aead_accepts (message : Bytes) (short : message.length / 64 < u32Max) :
    aead.Accepts message := by
  intro key nonce aad
  simp [aead,Nat.not_le.mpr short]

end Transparent

end Streamhaul
