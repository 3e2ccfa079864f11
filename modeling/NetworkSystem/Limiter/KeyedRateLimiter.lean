import NetworkSystem.Limiter.RateLimiter
import Mathlib.Logic.Function.Basic

/-!
# The rate limiter of many keys

`KeyedRateLimiter` of `src/stability/rate_limiter.rs`. The limiters of all keys live in one store, and an
`Arc<RateLimiter>` is a place in it: removing a key takes the place out of the map, and an `acquire` that is
under way keeps it. Each lock of the map is taken for one step: to look a limiter up and try it, to insert
one and try it, or to insert one and clone it. A call is named by its key and a number.
-/

namespace NetworkSystem

/-- The map, and every limiter that was ever created. All have the configuration of the map. -/
structure KeyedRateLimiter (K T : Type) where
  limiters : K → Option Nat := fun _ => none
  buckets : List (TokenBucket T) := []

namespace KeyedRateLimiter

variable {K T : Type} [DecidableEq K] [TokenCount T]

/-- `entry(key).or_insert_with(..)` under the write lock. -/
def getOrInsert (config : RateLimiterConfig) (s : KeyedRateLimiter K T) (key : K) (now : Nat) :
    Nat × KeyedRateLimiter K T :=
  match s.limiters key with
  | some limiter => (limiter, s)
  | none =>
      (s.buckets.length,
        { limiters := Function.update s.limiters key (some s.buckets.length)
          buckets := s.buckets ++ [.withConfig config now] })

def tryAcquireAt (config : RateLimiterConfig) (s : KeyedRateLimiter K T) (limiter now : Nat)
    (tokens : UInt64) : Option (Bool × KeyedRateLimiter K T) :=
  (s.buckets[limiter]?).map fun bucket =>
    let (ok, bucket) := bucket.tryAcquire config now tokens
    (ok, { s with buckets := s.buckets.set limiter bucket })

def removeKey (s : KeyedRateLimiter K T) (key : K) : KeyedRateLimiter K T :=
  { s with limiters := Function.update s.limiters key none }

def clear (s : KeyedRateLimiter K T) : KeyedRateLimiter K T :=
  { s with limiters := fun _ => none }

end KeyedRateLimiter

/-! ## Calls -/

inductive KeyedCall where
  /-- `try_acquire` before its read lock. -/
  | looking (tokens : UInt64)
  /-- `try_acquire` has not found the key, and is before its write lock. -/
  | creating (tokens : UInt64)
  /-- `acquire` before its write lock. -/
  | opening (tokens : UInt64) (timeout : Nat)
  /-- `acquire` of the limiter that it holds. -/
  | acquiring (limiter : Nat) (tokens : UInt64) (timeout : Nat) (call : AcquireCall)
  | ended
  deriving Repr, DecidableEq

inductive KeyedEvent (K : Type) where
  | tryAcquire (key : K) (i : Nat) (tokens : UInt64)
  | acquire (key : K) (i : Nat) (tokens : UInt64) (timeout : Nat)
  /-- The call goes on to its next step. -/
  | step (key : K) (i : Nat)
  /-- The future of an `acquire` is dropped while it is not running. -/
  | drop (key : K) (i : Nat)
  | removeKey (key : K)
  | clear
  deriving Repr, DecidableEq

inductive KeyedReply where
  | running
  | acquired (ok : Bool)
  | timedOut
  | panicked
  | done
  deriving Repr, DecidableEq

structure KeyedCalls (K T : Type) extends KeyedRateLimiter K T where
  calls : K × Nat → Option KeyedCall := fun _ => none

/-- What an `acquire` has come to. -/
def AcquireCall.outcome (limiter : Nat) (tokens : UInt64) (timeout : Nat) : AcquireCall → KeyedReply × KeyedCall
  | .returned (.ok ok) => (.acquired ok, .ended)
  | .returned (.error .timeout) => (.timedOut, .ended)
  | .panicked => (.panicked, .ended)
  | call => (.running, .acquiring limiter tokens timeout call)

/-- The tokens that the next step of the call asks a limiter for; `found` if its key is in the map. -/
def KeyedCall.asks (found : Bool) : KeyedCall → Option UInt64
  | .looking tokens => if found then some tokens else none
  | .creating tokens | .acquiring _ tokens _ (.attempting _) => some tokens
  | _ => none

namespace KeyedCalls

variable {K T : Type} [DecidableEq K] [TokenCount T]

def setCall (s : KeyedCalls K T) (key : K) (i : Nat) (call : KeyedCall) : KeyedCalls K T :=
  { s with calls := Function.update s.calls (key, i) (some call) }

def setBucket (s : KeyedCalls K T) (limiter : Nat) (bucket : TokenBucket T) : KeyedCalls K T :=
  { s with buckets := s.buckets.set limiter bucket }

/-- The rest of `try_acquire` once it has its limiter. -/
def tryOn (config : RateLimiterConfig) (s : KeyedCalls K T) (key : K) (i limiter now : Nat)
    (tokens : UInt64) : Option (KeyedReply × KeyedCalls K T) :=
  (s.toKeyedRateLimiter.tryAcquireAt config limiter now tokens).map fun r =>
    (.acquired r.1, { s with toKeyedRateLimiter := r.2 }.setCall key i .ended)

def getOrInsert (config : RateLimiterConfig) (s : KeyedCalls K T) (key : K) (now : Nat) :
    Nat × KeyedCalls K T :=
  let (limiter, limiters) := s.toKeyedRateLimiter.getOrInsert config key now
  (limiter, { s with toKeyedRateLimiter := limiters })

/-- The next step of the call `i` of the key. -/
def next (config : RateLimiterConfig) (s : KeyedCalls K T) (key : K) (i now : Nat) :
    KeyedCall → Option (KeyedReply × KeyedCalls K T)
  | .looking tokens =>
      match s.limiters key with
      | some limiter => s.tryOn config key i limiter now tokens
      | none => some (.running, s.setCall key i (.creating tokens))
  | .creating tokens =>
      let (limiter, s) := s.getOrInsert config key now
      s.tryOn config key i limiter now tokens
  | .opening tokens timeout =>
      let (limiter, s) := s.getOrInsert config key now
      some (.running, s.setCall key i (.acquiring limiter tokens timeout .starting))
  | .acquiring limiter tokens timeout call =>
      (s.buckets[limiter]?).bind fun bucket =>
        (bucket.acquireStep config tokens timeout now call).map fun r =>
          let (reply, call) := r.1.outcome limiter tokens timeout
          (reply, (s.setBucket limiter r.2).setCall key i call)
  | .ended => none

def callStep (config : RateLimiterConfig) (s : KeyedCalls K T) (now : Nat) :
    KeyedEvent K → Option (KeyedReply × KeyedCalls K T)
  | .tryAcquire key i tokens =>
      match s.calls (key, i) with
      | none => some (.running, s.setCall key i (.looking tokens))
      | some _ => none
  | .acquire key i tokens timeout =>
      match s.calls (key, i) with
      | none => some (.running, s.setCall key i (.opening tokens timeout))
      | some _ => none
  | .step key i => (s.calls (key, i)).bind (s.next config key i now)
  | .drop key i =>
      match s.calls (key, i) with
      | some (.opening _ _) | some (.acquiring _ _ _ (.sleeping _ _)) => some (.done, s.setCall key i .ended)
      | _ => none
  | .removeKey key => some (.done, { s with toKeyedRateLimiter := s.toKeyedRateLimiter.removeKey key })
  | .clear => some (.done, { s with toKeyedRateLimiter := s.toKeyedRateLimiter.clear })

/-- One step, with what it replies. -/
def step (config : RateLimiterConfig) : Steps.Clocked (KeyedCalls K T) → Nat × KeyedEvent K × KeyedReply →
    Option (Steps.Clocked (KeyedCalls K T)) :=
  Steps.clocked (Steps.answered (callStep config))

def fresh (K T : Type) : Steps.Clocked (KeyedCalls K T) := ⟨0, {}⟩

/-- The attempt on the limiter of the key that the event is, and how it ends. -/
def attempt (key : K) (c : Steps.Clocked (KeyedCalls K T)) :
    Nat × KeyedEvent K × KeyedReply → Option (Nat × LimiterOp × LimiterReply)
  | (now, .step k i, reply) =>
      if k = key then
        (c.state.calls (k, i)).bind fun call =>
          (call.asks (c.state.limiters k).isSome).map fun tokens =>
            (now, .tryAcquire tokens, .acquired (reply = .acquired true))
      else none
  | _ => none

/-- All attempts on the limiters of the key, by `try_acquire` and by `acquire`, in the order of the run. -/
def attempts (T : Type) [TokenCount T] (config : RateLimiterConfig) (key : K)
    (es : List (Nat × KeyedEvent K × KeyedReply)) : List (Nat × LimiterOp × LimiterReply) :=
  Steps.outputs (step (T := T) config) (attempt key) (fresh K T) es

end KeyedCalls

end NetworkSystem
