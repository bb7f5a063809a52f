import Streamhaul.Machine
import Streamhaul.PeerAuth

/-! The signaling client at its socket: it dials, answers the challenge with a signed Hello, waits for
the acknowledgement and then hands messages to the application. A loss is followed by attempts to
connect again, spaced by a backoff strategy. -/
namespace Streamhaul

/-- Delays are in milliseconds; none means to give up. -/
class BackoffStrategy (B : Type) where
  nextDelay : B → Option Nat × B
  reset : B → B

structure ExponentialBackoff where
  baseMs : Nat
  maxMs : Nat
  maxAttempts : Nat
  currentMs : Nat
  attempts : Nat
  deriving DecidableEq

namespace ExponentialBackoff

def new (baseMs maxMs maxAttempts : Nat) : ExponentialBackoff := ⟨baseMs,maxMs,maxAttempts,baseMs,0⟩

def nextDelay (b : ExponentialBackoff) : Option Nat × ExponentialBackoff :=
  if b.attempts ≥ b.maxAttempts then (none,b)
  else (some b.currentMs,{ b with
    attempts := satAdd u32Max b.attempts 1
    currentMs := min (min (b.currentMs * 2) u64Max) b.maxMs })

def reset (b : ExponentialBackoff) : ExponentialBackoff := { b with currentMs := b.baseMs, attempts := 0 }

end ExponentialBackoff

instance : BackoffStrategy ExponentialBackoff := ⟨ExponentialBackoff.nextDelay,ExponentialBackoff.reset⟩

inductive ClientError where
  | envelope (e : SignalingError)
  | crypto (e : CryptoError)
  | webSocket
  | notConnected
  | unexpectedMessageType
  | invalidChallenge
  deriving DecidableEq

/-- What the socket yields: a message, an error, or the end of the stream. -/
inductive Arrival where
  | binary (bytes : Bytes)
  | ping
  | close
  | other
  | failed
  | ended
  deriving DecidableEq

inductive ClientOutgoing where
  | binary (bytes : Bytes)
  | pong
  deriving DecidableEq

/-- Without a keystore the Hello carries an empty proof. -/
structure ClientConfig where
  sessionId : SessionId
  myFp : Text
  keystore : Option Keystore

/-- Where the client's task waits. In `lost` the last attempt to reconnect was given up and the dead
socket is still in place. -/
inductive ClientMode where
  | dialing
  | awaitingChallenge
  | awaitingAck
  | connected
  | lost
  deriving DecidableEq

structure SignalingClient (B : Type) where
  config : ClientConfig
  backoff : B
  mode : ClientMode

inductive ClientCall where
  | dialed (ok : Bool)
  | arrived (item : Arrival) (sendOk : Bool)

/-- What is written to the socket, how long the client sleeps, and what `recv` or the constructor
returns. -/
structure ClientReply where
  sent : List ClientOutgoing
  slept : Option Nat
  returned : Option (Except ClientError (Option SignalingEnvelope))
  deriving DecidableEq

namespace ClientConfig

/-- The claimed fingerprint is that of the device. -/
def authenticated (suite : KeySuite) (keystore : Keystore) (sessionId : SessionId) : Except ClientError ClientConfig :=
  match keystore.deviceIdentity with
  | .error e => .error (.crypto e)
  | .ok key => .ok ⟨sessionId,(DeviceIdentity.fromVerifyingKey suite key).fingerprint,some keystore⟩

def proofPayload (config : ClientConfig) (challenge : Key) : Except ClientError Bytes :=
  match config.keystore with
  | none => .ok []
  | some keystore =>
    match IdentityProof.create keystore config.sessionId challenge with
    | .error e => .error (.crypto e)
    | .ok proof => .ok proof.encode

def hello (config : ClientConfig) (payload : Bytes) : SignalingEnvelope :=
  ⟨.hello,config.sessionId,config.myFp,zeroFp,payload⟩

def answer (config : ClientConfig) (challenge : Key) : Except ClientError Bytes :=
  match config.proofPayload challenge with
  | .error e => .error e
  | .ok payload => (config.hello payload).encode.mapError .envelope

end ClientConfig

/-- One turn of the loop in `recv_challenge`; after a ping it goes on waiting. -/
def recvChallenge (item : Arrival) (sendOk : Bool) : Except ClientError (Option Key) :=
  match item with
  | .binary bytes =>
    match SignalingEnvelope.decode bytes with
    | .error e => .error (.envelope e)
    | .ok env =>
      if env.kind ≠ .challenge then .error .unexpectedMessageType
      else match toVector peerAuthChallengeLen env.payload with
        | none => .error .invalidChallenge
        | some challenge => .ok (some challenge)
  | .ping => if sendOk then .ok none else .error .webSocket
  | .close | .other => .error .unexpectedMessageType
  | .failed => .error .webSocket
  | .ended => .error .notConnected

/-- One turn of the loop that consumes the acknowledgement: whether it was it. -/
def recvAck (item : Arrival) (sendOk : Bool) : Except ClientError Bool :=
  match item with
  | .binary bytes =>
    match SignalingEnvelope.decode bytes with
    | .error e => .error (.envelope e)
    | .ok env => if env.kind = .hello then .ok true else .error .unexpectedMessageType
  | .ping => if sendOk then .ok false else .error .webSocket
  | .close | .other => .error .unexpectedMessageType
  | .failed => .error .webSocket
  | .ended => .error .notConnected

namespace SignalingClient

variable {B : Type} [BackoffStrategy B]

def new (config : ClientConfig) (backoff : B) : SignalingClient B := ⟨config,backoff,.dialing⟩

/-- A failed attempt, whatever its error: the strategy says how long to wait for the next one. -/
def retry (client : SignalingClient B) (sent : List ClientOutgoing) : ClientReply × SignalingClient B :=
  match BackoffStrategy.nextDelay client.backoff with
  | (some delay,backoff) => (⟨sent,some delay,none⟩,{ client with backoff := backoff, mode := .dialing })
  | (none,backoff) => (⟨sent,none,some (.error .notConnected)⟩,{ client with backoff := backoff, mode := .lost })

def onChallenge (client : SignalingClient B) (item : Arrival) (sendOk : Bool) : ClientReply × SignalingClient B :=
  match recvChallenge item sendOk with
  | .error _ => client.retry []
  | .ok none => (⟨[.pong],none,none⟩,client)
  | .ok (some challenge) =>
    match client.config.answer challenge with
    | .error _ => client.retry []
    | .ok hello =>
      if sendOk then (⟨[.binary hello],none,none⟩,{ client with mode := .awaitingAck })
      else client.retry [.binary hello]

def onAck (client : SignalingClient B) (item : Arrival) (sendOk : Bool) : ClientReply × SignalingClient B :=
  match recvAck item sendOk with
  | .error _ => client.retry []
  | .ok false => (⟨[.pong],none,none⟩,client)
  | .ok true =>
    (⟨[],none,none⟩,{ client with backoff := BackoffStrategy.reset client.backoff, mode := .connected })

/-- One turn of the loop in `recv`. A peer's `Bye` and a close frame both end the stream for the caller,
and a message that does not decode is an error that leaves the connection alone. -/
def onRecv (client : SignalingClient B) (item : Arrival) : ClientReply × SignalingClient B :=
  match item with
  | .binary bytes =>
    match SignalingEnvelope.decode bytes with
    | .error e => (⟨[],none,some (.error (.envelope e))⟩,client)
    | .ok env => (⟨[],none,some (.ok (if env.kind = .bye then none else some env))⟩,client)
  | .close => (⟨[],none,some (.ok none)⟩,client)
  | .ping => (⟨[.pong],none,none⟩,client)
  | .other => (⟨[],none,none⟩,client)
  | .failed | .ended => (⟨[],none,none⟩,{ client with mode := .dialing })

/-- A dead socket yields nothing but its end, and `recv` tries to connect again. -/
def onLost (client : SignalingClient B) (item : Arrival) : ClientReply × SignalingClient B :=
  match item with
  | .failed | .ended => (⟨[],none,none⟩,{ client with mode := .dialing })
  | _ => (⟨[],none,none⟩,client)

def step (client : SignalingClient B) : ClientCall → ClientReply × SignalingClient B
  | .dialed ok =>
    if client.mode ≠ .dialing then (⟨[],none,none⟩,client)
    else if ok then (⟨[],none,none⟩,{ client with mode := .awaitingChallenge })
    else client.retry []
  | .arrived item sendOk =>
    match client.mode with
    | .dialing => (⟨[],none,none⟩,client)
    | .awaitingChallenge => client.onChallenge item sendOk
    | .awaitingAck => client.onAck item sendOk
    | .connected => client.onRecv item
    | .lost => client.onLost item

/-- One turn, by what it does to the attempts. -/
inductive Turn (client : SignalingClient B) : ClientReply × SignalingClient B → Prop
  | waited (reply : ClientReply) (next : SignalingClient B) (backoff : next.backoff = client.backoff)
      (awake : reply.slept = none) (told : reply.returned ≠ some (.error .notConnected))
      (later : next.mode = .connected → client.mode = .connected) : Turn client (reply,next)
  | acked (apart : client.mode ≠ .connected) : Turn client
      (⟨[],none,none⟩,{ client with backoff := BackoffStrategy.reset client.backoff, mode := .connected })
  | retried (sent : List ClientOutgoing) (apart : client.mode ≠ .connected) : Turn client (client.retry sent)

theorem turn_step (client : SignalingClient B) (call : ClientCall) : Turn client (client.step call) := by
  have stays (sent : List ClientOutgoing) : Turn client (⟨sent,none,none⟩,client) :=
    .waited _ _ rfl rfl nofun id
  have moves (mode : ClientMode) (sent : List ClientOutgoing) (apart : mode ≠ .connected) :
      Turn client (⟨sent,none,none⟩,{ client with mode := mode }) :=
    .waited _ _ rfl rfl nofun (fun now => absurd now apart)
  cases call with
  | dialed ok =>
    simp only [step]
    split
    · exact stays []
    · next dialing =>
      have apart : client.mode ≠ .connected := by
        rw [not_not.mp dialing]
        nofun
      split
      · exact moves _ [] nofun
      · exact .retried [] apart
  | arrived item sendOk =>
    simp only [step]
    split
    · exact stays []
    · next waiting =>
      have apart : client.mode ≠ .connected := by simp [waiting]
      unfold onChallenge
      split
      · exact .retried [] apart
      · exact stays [.pong]
      · split
        · exact .retried [] apart
        · split
          · exact moves _ _ nofun
          · exact .retried _ apart
    · next waiting =>
      have apart : client.mode ≠ .connected := by simp [waiting]
      unfold onAck
      split
      · exact .retried [] apart
      · exact stays [.pong]
      · exact .acked apart
    · unfold onRecv
      split
      · split
        · exact .waited _ _ rfl rfl (by simp) id
        · exact .waited _ _ rfl rfl (by simp) id
      · exact .waited _ _ rfl rfl (by simp) id
      · exact stays [.pong]
      · exact stays []
      · exact moves _ [] nofun
      · exact moves _ [] nofun
    · unfold onLost
      split
      · exact moves _ [] nofun
      · exact moves _ [] nofun
      · exact stays []

end SignalingClient

/-- How attempts to connect go: one fails and the next is made after a delay, one fails and is the last,
or one succeeds. -/
inductive ConnectAttempt where
  | slept (ms : Nat)
  | gaveUp
  | succeeded
  deriving DecidableEq

namespace SignalingClient

open Machine

def attempt {B : Type} (e : Event (SignalingClient B) ClientCall ClientReply) : Option ConnectAttempt :=
  if e.before.mode ≠ .connected ∧ e.after.mode = .connected then some .succeeded
  else match e.response.slept with
    | some delay => some (.slept delay)
    | none => if e.response.returned = some (.error .notConnected) then some .gaveUp else none

/-- The delay before the next attempt, after so many failures. -/
def scheduled (baseMs maxMs : Nat) : Nat → Nat
  | 0 => baseMs
  | failures + 1 => min (baseMs * 2 ^ (failures + 1)) maxMs

/-- What has been attempted since the client was last connected. -/
def outage (attempts : List ConnectAttempt) : List ConnectAttempt := (attempts.reverse.takeWhile (· ≠ .succeeded)).reverse

theorem outage_succeeded (attempts : List ConnectAttempt) : outage (attempts ++ [.succeeded]) = [] := by
  simp [outage]

theorem outage_failed (attempts : List ConnectAttempt) (failure : ConnectAttempt) (failed : failure ≠ .succeeded) :
    outage (attempts ++ [failure]) = outage attempts ++ [failure] := by
  simp [outage,failed]

/-- The attempts of an outage follow the schedule until its end, and from there on each is the last. -/
structure Paced (baseMs maxMs maxAttempts : Nat) (attempts : List ConnectAttempt) (failures : Nat) : Prop where
  bounded : failures ≤ maxAttempts
  paced : ∃ refusals, outage attempts =
    (List.range failures).map (fun i => .slept (scheduled baseMs maxMs i)) ++ List.replicate refusals .gaveUp ∧
    (0 < refusals → failures = maxAttempts)

theorem scheduled_succ {b maxMs : Nat} (fits : maxMs ≤ u64Max) (failures : Nat) :
    min (min (scheduled b maxMs failures * 2) u64Max) maxMs = scheduled b maxMs (failures + 1) := by
  cases failures with
  | zero =>
    simp only [scheduled]
    omega
  | succ k =>
    have doubled : b * 2 ^ (k + 1 + 1) = b * 2 ^ (k + 1) * 2 := by ring
    simp only [scheduled,doubled]
    omega

section Paced

variable {baseMs maxMs maxAttempts : Nat} {attempts : List ConnectAttempt} {failures : Nat}

theorem Paced.slept (paced : Paced baseMs maxMs maxAttempts attempts failures) (more : failures < maxAttempts) :
    Paced baseMs maxMs maxAttempts (attempts ++ [.slept (scheduled baseMs maxMs failures)]) (failures + 1) := by
  obtain ⟨refusals,same,last⟩ := paced.paced
  have none_yet : refusals = 0 := by
    by_contra some
    have := last (Nat.pos_of_ne_zero some)
    omega
  refine ⟨more,0,?_,nofun⟩
  rw [outage_failed attempts _ (by simp),same,none_yet,List.range_succ]
  simp

theorem Paced.gaveUp (paced : Paced baseMs maxMs maxAttempts attempts failures) (spent : maxAttempts ≤ failures) :
    Paced baseMs maxMs maxAttempts (attempts ++ [.gaveUp]) failures := by
  obtain ⟨refusals,same,_⟩ := paced.paced
  refine ⟨paced.bounded,refusals + 1,?_,fun _ => le_antisymm paced.bounded spent⟩
  rw [outage_failed attempts _ (by simp),same,List.replicate_succ',List.append_assoc]

theorem Paced.succeeded : Paced baseMs maxMs maxAttempts (attempts ++ [.succeeded]) 0 :=
  ⟨Nat.zero_le _,0,by simp [outage_succeeded],nofun⟩

def slept (attempts : List ConnectAttempt) : List Nat :=
  attempts.filterMap fun
    | .slept delay => some delay
    | _ => none

theorem Paced.slept_eq (paced : Paced baseMs maxMs maxAttempts attempts failures) :
    SignalingClient.slept (outage attempts) = (List.range failures).map (scheduled baseMs maxMs) := by
  obtain ⟨refusals,same,_⟩ := paced.paced
  rw [same,SignalingClient.slept,List.filterMap_append,List.filterMap_map]
  simp

theorem scheduled_le (failures : Nat) : scheduled baseMs maxMs failures ≤ max baseMs maxMs := by
  cases failures with
  | zero => exact Nat.le_max_left _ _
  | succ k => exact (Nat.min_le_right _ _).trans (Nat.le_max_right _ _)

end Paced

section Retry

variable (client : SignalingClient ExponentialBackoff) (sent : List ClientOutgoing)

theorem retry_spent (spent : client.backoff.attempts ≥ client.backoff.maxAttempts) :
    client.retry sent = (⟨sent,none,some (.error .notConnected)⟩,{ client with mode := .lost }) := by
  simp only [retry,BackoffStrategy.nextDelay,ExponentialBackoff.nextDelay,if_pos spent]

theorem retry_more (more : ¬client.backoff.attempts ≥ client.backoff.maxAttempts) :
    client.retry sent = (⟨sent,some client.backoff.currentMs,none⟩,{ client with
      backoff := { client.backoff with
        attempts := satAdd u32Max client.backoff.attempts 1
        currentMs := min (min (client.backoff.currentMs * 2) u64Max) client.backoff.maxMs }
      mode := .dialing }) := by
  simp only [retry,BackoffStrategy.nextDelay,ExponentialBackoff.nextDelay,if_neg more]

end Retry

/-- The strategy's counters against what has been attempted. -/
structure Counted (baseMs maxMs maxAttempts : Nat) (attempts : List ConnectAttempt) (backoff : ExponentialBackoff) : Prop where
  base : backoff.baseMs = baseMs
  cap : backoff.maxMs = maxMs
  limit : backoff.maxAttempts = maxAttempts
  current : backoff.currentMs = scheduled baseMs maxMs backoff.attempts
  paced : Paced baseMs maxMs maxAttempts attempts backoff.attempts

theorem counted_step {baseMs maxMs maxAttempts : Nat} (fits : maxMs ≤ u64Max) (counts : maxAttempts ≤ u32Max)
    (attempts : List ConnectAttempt) (client : SignalingClient ExponentialBackoff) (call : ClientCall)
    (counted : Counted baseMs maxMs maxAttempts attempts client.backoff) :
    Counted baseMs maxMs maxAttempts (attempts ++ (attempt (fire step client call)).toList)
      (client.step call).2.backoff := by
  have turn := turn_step client call
  unfold fire
  generalize client.step call = outcome at turn
  cases turn with
  | waited reply next backoff awake told later =>
    have quiet : attempt ⟨client,call,reply,next⟩ = none := by
      have calm : ¬(client.mode ≠ .connected ∧ next.mode = .connected) := fun both => both.1 (later both.2)
      simp only [attempt,if_neg calm,awake,if_neg told]
    rw [quiet,backoff,Option.toList_none,List.append_nil]
    exact counted
  | acked apart =>
    have up : attempt ⟨client,call,⟨[],none,none⟩,
        { client with backoff := BackoffStrategy.reset client.backoff, mode := .connected }⟩ = some .succeeded := by
      simp [attempt,apart]
    rw [up]
    exact ⟨counted.base,counted.cap,counted.limit,counted.base,Paced.succeeded⟩
  | retried sent apart =>
    obtain ⟨base,cap,limit,current,paced⟩ := counted
    by_cases spent : client.backoff.attempts ≥ client.backoff.maxAttempts
    · rw [retry_spent client sent spent]
      have noted : attempt ⟨client,call,⟨sent,none,some (.error .notConnected)⟩,{ client with mode := .lost }⟩ =
          some .gaveUp := by simp [attempt]
      rw [noted]
      exact ⟨base,cap,limit,current,paced.gaveUp (limit ▸ spent)⟩
    · have more : client.backoff.attempts < maxAttempts := limit ▸ Nat.lt_of_not_ge spent
      have counter : satAdd u32Max client.backoff.attempts 1 = client.backoff.attempts + 1 := satAdd_of_le (by omega)
      have doubled := scheduled_succ (b := baseMs) fits client.backoff.attempts
      rw [retry_more client sent spent]
      have noted (next : SignalingClient ExponentialBackoff) (apart : next.mode = .dialing) :
          attempt ⟨client,call,⟨sent,some client.backoff.currentMs,none⟩,next⟩ =
            some (.slept client.backoff.currentMs) := by simp [attempt,apart]
      rw [noted _ rfl,current,counter,cap,doubled]
      exact ⟨base,cap,limit,rfl,paced.slept more⟩

/-- Over any run of a client the attempts of an outage are spaced by the doubling schedule up to its cap,
the client gives up exactly when the schedule is used up, and every success starts it anew. -/
theorem client_paced (config : ClientConfig) (baseMs maxMs maxAttempts : Nat) (fits : maxMs ≤ u64Max)
    (counts : maxAttempts ≤ u32Max) (calls : List ClientCall) :
    let attempts := (trace step (new config (ExponentialBackoff.new baseMs maxMs maxAttempts)) calls).filterMap attempt
    ∃ failures, Paced baseMs maxMs maxAttempts attempts failures ∧
      slept (outage attempts) = (List.range failures).map (scheduled baseMs maxMs) ∧
      (slept (outage attempts)).sum ≤ maxAttempts * max baseMs maxMs := by
  have initial : Counted baseMs maxMs maxAttempts [] (ExponentialBackoff.new baseMs maxMs maxAttempts) :=
    ⟨rfl,rfl,rfl,rfl,Nat.zero_le _,0,rfl,nofun⟩
  have counted := history_invariant step attempt (fun _ _ => True)
    (fun attempts client => Counted baseMs maxMs maxAttempts attempts client.backoff)
    (fun attempts client call _ => counted_step fits counts attempts client call) []
    (new config (ExponentialBackoff.new baseMs maxMs maxAttempts)) calls initial (fun _ _ => trivial)
  rw [List.nil_append] at counted
  refine ⟨_,counted.paced,counted.paced.slept_eq,?_⟩
  rw [counted.paced.slept_eq]
  refine (List.sum_le_card_nsmul _ (max baseMs maxMs) ?_).trans ?_
  · intro delay member
    obtain ⟨i,_,rfl⟩ := List.mem_map.mp member
    exact scheduled_le i
  · rw [List.length_map,List.length_range,smul_eq_mul]
    exact Nat.mul_le_mul_right _ counted.paced.bounded

/-- Nine failures in a row under the default strategy. -/
theorem client_paced_unreachable :
    let config : ClientConfig := ⟨Vector.replicate 16 0,zeroFp,none⟩
    let attempts := (trace step (new config (ExponentialBackoff.new 100 30000 8))
      (List.replicate 9 (.dialed false))).filterMap attempt
    attempts = [100,200,400,800,1600,3200,6400,12800].map .slept ++ [.gaveUp] ∧
    ∃ failures, slept (outage attempts) = (List.range failures).map (scheduled 100 30000) := by
  refine ⟨by decide +kernel,?_⟩
  obtain ⟨failures,_,same,_⟩ := client_paced ⟨Vector.replicate 16 0,zeroFp,none⟩ 100 30000 8 (by decide) (by decide)
    (List.replicate 9 (.dialed false))
  exact ⟨failures,same⟩

end SignalingClient

end Streamhaul
