import NetworkSystem.Lib.Replies
import Mathlib.Algebra.Order.Field.Rat

/-!
# The rate limiter

`RateLimiter` of `src/stability/rate_limiter.rs`, a token bucket. Every function takes the lock of the bucket
for its whole body and reads the clock under it, so that a run of the limiter is a list of calls with their
readings. `acquire` calls `try_acquire` again and again and reads the clock in between; `AcquireCall` is where
it stands.

The functions are generic in the numbers that count tokens. Times are clock readings and durations in
nanoseconds; a `Duration` since a later reading is zero.
-/

namespace NetworkSystem

inductive RateLimiterError where
  | timeout
  deriving Repr, DecidableEq

def RateLimiterError.message : RateLimiterError → String
  | .timeout => "Timeout waiting for tokens"

structure RateLimiterConfig where
  capacity : UInt64 := 100
  refillAmount : UInt64 := 10
  refillInterval : Nat := 1000000000
  deriving Repr, DecidableEq

namespace RateLimiterConfig

def perSecond (rate : UInt64) : RateLimiterConfig :=
  { capacity := rate, refillAmount := rate, refillInterval := 1000000000 }

/-- The division of a `Duration` by a `u32`, which panics when that is zero. -/
def waitTime (config : RateLimiterConfig) : Option Nat :=
  let refillAmount := config.refillAmount.toUInt32
  if refillAmount = 0 then none else some (config.refillInterval / refillAmount.toNat)

end RateLimiterConfig

/-- The numbers that count tokens, `f64` in the code. -/
class TokenCount (T : Type) extends Add T, Sub T, Mul T, Div T, Min T where
  /-- `as f64`. -/
  ofU64 : UInt64 → T
  /-- `Duration::as_secs_f64`. -/
  asSecs : Nat → T
  /-- `a >= b`. -/
  ge (a b : T) : Bool
  /-- `floor() as u64`, which saturates. -/
  floor : T → UInt64

/-- Exact rationals. -/
instance : TokenCount ℚ where
  ofU64 n := n.toNat
  asSecs d := d / 1000000000
  ge a b := decide (b ≤ a)
  floor a := UInt64.ofNat (min a.floor.toNat (2 ^ 64 - 1))

@[ext]
structure TokenBucket (T : Type) where
  tokens : T
  lastRefill : Nat
  deriving Repr, DecidableEq

namespace TokenBucket

open TokenCount

variable {T : Type} [TokenCount T]

/-- The bucket of `RateLimiter::with_config`. -/
def withConfig (config : RateLimiterConfig) (now : Nat) : TokenBucket T :=
  ⟨ofU64 config.capacity, now⟩

def refillTokens (config : RateLimiterConfig) (bucket : TokenBucket T) (now : Nat) : TokenBucket T :=
  let elapsed := now - bucket.lastRefill
  let intervals : T := asSecs elapsed / asSecs config.refillInterval
  let tokensToAdd := intervals * ofU64 config.refillAmount
  { tokens := min (bucket.tokens + tokensToAdd) (ofU64 config.capacity), lastRefill := now }

def tryAcquire (config : RateLimiterConfig) (bucket : TokenBucket T) (now : Nat) (tokens : UInt64) :
    Bool × TokenBucket T :=
  let bucket := bucket.refillTokens config now
  if ge bucket.tokens (ofU64 tokens) then
    (true, { bucket with tokens := bucket.tokens - ofU64 tokens })
  else (false, bucket)

def availableTokens (config : RateLimiterConfig) (bucket : TokenBucket T) (now : Nat) :
    UInt64 × TokenBucket T :=
  let bucket := bucket.refillTokens config now
  (floor bucket.tokens, bucket)

def reset (config : RateLimiterConfig) (now : Nat) : TokenBucket T :=
  { tokens := ofU64 config.capacity, lastRefill := now }

end TokenBucket

/-! ## Runs of the limiter -/

inductive LimiterOp where
  | tryAcquire (tokens : UInt64)
  | availableTokens
  | reset
  deriving Repr, DecidableEq

inductive LimiterReply where
  | acquired (ok : Bool)
  | available (tokens : UInt64)
  | done
  deriving Repr, DecidableEq

namespace TokenBucket

variable {T : Type} [TokenCount T]

def apply (config : RateLimiterConfig) (bucket : TokenBucket T) (now : Nat) :
    LimiterOp → LimiterReply × TokenBucket T
  | .tryAcquire tokens =>
      let (ok, bucket) := bucket.tryAcquire config now tokens
      (.acquired ok, bucket)
  | .availableTokens =>
      let (tokens, bucket) := bucket.availableTokens config now
      (.available tokens, bucket)
  | .reset => (.done, reset config now)

/-- One call, with what it returns. -/
def step (config : RateLimiterConfig) : Steps.Clocked (TokenBucket T) → Nat × LimiterOp × LimiterReply →
    Option (Steps.Clocked (TokenBucket T)) :=
  Steps.clocked (Steps.answered fun bucket now op => some (bucket.apply config now op))

def fresh (T : Type) [TokenCount T] (config : RateLimiterConfig) (start : Nat) :
    Steps.Clocked (TokenBucket T) :=
  ⟨start, withConfig config start⟩

end TokenBucket

/-! ## Waiting for tokens -/

/-- Where an `acquire` stands. -/
inductive AcquireCall where
  | starting
  | attempting (deadline : Nat)
  /-- The attempt has failed, and the clock is to be compared with the deadline. -/
  | refused (deadline : Nat)
  /-- The sleep is to be computed. -/
  | pausing (deadline : Nat)
  | sleeping (deadline wake : Nat)
  | returned (result : Except RateLimiterError Bool)
  | panicked
  deriving Repr, DecidableEq

def TokenBucket.acquireStep {T : Type} [TokenCount T] (config : RateLimiterConfig) (tokens : UInt64)
    (timeout : Nat) (bucket : TokenBucket T) (now : Nat) :
    AcquireCall → Option (AcquireCall × TokenBucket T)
  | .starting => some (.attempting (now + timeout), bucket)
  | .attempting deadline =>
      match bucket.tryAcquire config now tokens with
      | (true, bucket) => some (.returned (.ok true), bucket)
      | (false, bucket) => some (.refused deadline, bucket)
  | .refused deadline =>
      if now ≥ deadline then some (.returned (.error .timeout), bucket)
      else some (.pausing deadline, bucket)
  | .pausing deadline =>
      match config.waitTime with
      | none => some (.panicked, bucket)
      | some waitTime =>
          let sleepDuration := min waitTime (deadline - now)
          if sleepDuration = 0 then some (.attempting deadline, bucket)
          else some (.sleeping deadline (now + sleepDuration), bucket)
  | .sleeping deadline wake => if wake ≤ now then some (.attempting deadline, bucket) else none
  | .returned _ | .panicked => none

end NetworkSystem
