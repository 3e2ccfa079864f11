import NetworkSystem.Client.TcpClient

/-!
# The schedule of `reconnect`

What `TcpClient::reconnect` of `src/core/client.rs` is to do, attempt by attempt, with its delays in closed form.
-/

namespace NetworkSystem

def ReconnectAction.isAttempt : ReconnectAction → Bool
  | .attempt _ => true
  | .sleep _ => false

/-- `delay_ms` after attempt `i`. -/
def delayMs : Nat → UInt64
  | 0 | 1 => 100
  | i + 1 => min (delayMs i * 2) maxDelayMs

/-- The delay after attempt `i` in numbers. -/
def backoff (i : Nat) : Nat := min (100 * 2 ^ (i - 1)) 30000

namespace Client

variable {A : Type} (parse : String → Except String A)

/-- The number of the first attempt that reaches the server, among those that `reconnect` is allowed. -/
def firstReached (c : Client) (attempts : Attempts) : Option Nat :=
  (List.range' 1 c.config.maxReconnectAttempts).find? fun i => c.reaches parse (attempts.net i)

def attemptsMade (c : Client) (attempts : Attempts) : Nat :=
  (c.firstReached parse attempts).getD c.config.maxReconnectAttempts

/-- Attempt `i` of `made`, and the sleep after it unless it is the last. -/
def scheduled (c : Client) (attempts : Attempts) (made i : Nat) : List ReconnectAction :=
  .attempt (c.connectInternal parse true (attempts.net i)).1 ::
    if i < made then [.sleep (delayMs i + .ofNat (attempts.jitter i))] else []

def schedule (c : Client) (attempts : Attempts) : List ReconnectAction :=
  (List.range' 1 (c.attemptsMade parse attempts)).flatMap
    (c.scheduled parse attempts (c.attemptsMade parse attempts))

/-- `reconnect` does what its schedule says, and ends as its attempts do. -/
structure KeepsSchedule (c : Client) (attempts : Attempts) (r : Reconnected) : Prop where
  actions : r.actions = c.schedule parse attempts
  made : r.actions.countP ReconnectAction.isAttempt = c.attemptsMade parse attempts
  reached : ∀ k, c.firstReached parse attempts = some k → r.result = .ok () ∧ r.client.state = .connected
  failed : c.firstReached parse attempts = none → (∃ e, r.result = .error e) ∧ r.client.state = .disconnected

end Client

/-- The delay after attempt `i` is the one in numbers, and neither the sum with the jitter nor the next doubling
overflows. -/
structure DelayFits (attempts : Attempts) (i : Nat) : Prop where
  delay : (delayMs i).toNat = backoff i
  sleep : (delayMs i + .ofNat (attempts.jitter i)).toNat = backoff i + attempts.jitter i
  sum : (delayMs i).toNat + attempts.jitter i < UInt64.size
  double : (delayMs i).toNat * 2 < UInt64.size

end NetworkSystem
