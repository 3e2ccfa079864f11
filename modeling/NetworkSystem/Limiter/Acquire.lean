import NetworkSystem.Limiter.RateLimiter

/-!
# Runs of `acquire`

One call of `RateLimiter::acquire` on a limiter that others use in between. Next to the call stands what it
promises about: when it started, and how its attempts ended.
-/

namespace NetworkSystem

open Steps

inductive AcquireEvent where
  | go
  /-- Another call on the limiter. -/
  | other (op : LimiterOp)
  deriving Repr, DecidableEq

/-- The attempts are those of the call, the latest first. -/
structure Acquiring (T : Type) where
  bucket : TokenBucket T
  call : AcquireCall
  started : Option Nat
  attempts : List Bool
  deriving Repr, DecidableEq

namespace Acquiring

variable {T : Type} [TokenCount T]

def fresh (T : Type) [TokenCount T] (config : RateLimiterConfig) (start : Nat) : Clocked (Acquiring T) :=
  ⟨start, ⟨.withConfig config start, .starting, none, []⟩⟩

def startedAt (s : Acquiring T) (now : Nat) : Option Nat :=
  match s.call with
  | .starting => some now
  | _ => s.started

/-- The attempts with the one that the call is about to make, if any. -/
def nextAttempts (config : RateLimiterConfig) (tokens : UInt64) (s : Acquiring T) (now : Nat) : List Bool :=
  match s.call with
  | .attempting _ => (s.bucket.tryAcquire config now tokens).1 :: s.attempts
  | _ => s.attempts

def timedStep (config : RateLimiterConfig) (tokens : UInt64) (timeout : Nat) (s : Acquiring T) (now : Nat) :
    AcquireEvent → Option (Acquiring T)
  | .go =>
      (s.bucket.acquireStep config tokens timeout now s.call).map fun (call, bucket) =>
        ⟨bucket, call, s.startedAt now, s.nextAttempts config tokens now⟩
  | .other op => some { s with bucket := (s.bucket.apply config now op).2 }

def step (config : RateLimiterConfig) (tokens : UInt64) (timeout : Nat) :
    Clocked (Acquiring T) → Nat × AcquireEvent → Option (Clocked (Acquiring T)) :=
  clocked (timedStep config tokens timeout)

/-- The call has not panicked. It returned `Ok(true)` only after one attempt was granted its tokens, and
`Timeout` only at or after its deadline and with none granted. -/
structure Honest (timeout : Nat) (c : Clocked (Acquiring T)) : Prop where
  no_panic : c.state.call ≠ .panicked
  acquired : ∀ ok, c.state.call = .returned (.ok ok) → ok = true ∧ c.state.attempts.count true = 1
  timed_out : c.state.call = .returned (.error .timeout) → c.state.attempts.count true = 0 ∧
    ∃ started, c.state.started = some started ∧ started + timeout ≤ c.now

/-- A step of the call takes its tokens out of the refilled bucket if it is an attempt that is granted them, and
takes nothing otherwise. -/
def TakesTokens (config : RateLimiterConfig) (tokens : UInt64) (timeout : Nat) (c : Clocked (Acquiring T))
    (e : Nat × AcquireEvent) : Prop :=
  e.2 = .go → ∀ c', step config tokens timeout c e = some c' →
    let refilled := c.state.bucket.refillTokens config e.1
    (c'.state.attempts = true :: c.state.attempts ∧
      c'.state.bucket = { refilled with tokens := refilled.tokens - TokenCount.ofU64 tokens }) ∨
    (c'.state.attempts.count true = c.state.attempts.count true ∧
      (c'.state.bucket = c.state.bucket ∨ c'.state.bucket = refilled))

def isPausing : AcquireCall → Bool
  | .pausing _ => true
  | _ => false

/-- The call does not come to compute its sleep where `refill_amount` is zero as a `u32`. -/
def PausesSafely (config : RateLimiterConfig) (c : Clocked (Acquiring T)) (e : Nat × AcquireEvent) : Prop :=
  c.now ≤ e.1 → e.2 = .go → config.refillAmount.toUInt32 = 0 → isPausing c.state.call = false

instance (config : RateLimiterConfig) (c : Clocked (Acquiring T)) (e : Nat × AcquireEvent) :
    Decidable (PausesSafely config c e) :=
  inferInstanceAs (Decidable (_ → _ → _ → _ = _))

end Acquiring

end NetworkSystem
