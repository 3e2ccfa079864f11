import NetworkSystem.Lib.Ledger
import NetworkSystem.Pool.ConnectionPool

/-!
# Where the connections are

A connection that `T::create` has returned is in the queue, with one call or its guard, taken out to be
closed, or given up: a connection that is found invalid is dropped and not closed, and so is what a future
has taken when it is dropped.
-/

namespace NetworkSystem

open TaskPool Steps

variable {T E : Type}

def ConnectionPool.queued (s : ConnectionPool T) : List T := s.available.map (·.connection.value)

namespace PoolCall

def connection : PoolCall T E → Option (Connection T)
  | .closing taken _ => taken
  | .validating connection | .created connection | .held connection | .filled connection _ => some connection
  | _ => none

def owns (c : PoolCall T E) : List T := (c.connection.map (·.value)).toList

/-- What the step takes out of the queue to be closed. -/
def retires (config : PoolConfig) (s : ConnectionPool T) : PoolCall T E → PoolEvent T E → List T
  | .permitted, .lock clock | .pruning, .lock clock => (s.removeExpired config clock).2.map (·.value)
  | .shutting, .lock _ => s.queued
  | _, _ => []

/-- What the step drops. -/
def givesUp (c : PoolCall T E) : PoolEvent T E → List T
  | .validated false | .drop => c.owns
  | _ => []

end PoolCall

def PoolEvent.creates : PoolEvent T E → List T
  | .create (.ok value) _ => [value]
  | _ => []

namespace ConnectionPool

/-- The connections that `T::create` returns in these events. -/
def created (es : List (Event PoolCallKind (PoolEvent T E))) : List T :=
  es.flatMap (Event.takes PoolEvent.creates)

/-- The connections that a run takes out of the queue to be closed. -/
def retired (config : PoolConfig) (es : List (Event PoolCallKind (PoolEvent T E))) : List T :=
  givenAway (poolCalls config).step (Pool.givesAway (PoolCall.retires config)) (fresh config) es

/-- The connections that a run drops. -/
def givenUp (config : PoolConfig) (es : List (Event PoolCallKind (PoolEvent T E))) : List T :=
  givenAway (poolCalls config).step (Pool.givesAway fun _ => PoolCall.givesUp) (fresh config) es

end ConnectionPool

/-- No connection is at two places, and none of those that are gone is anywhere or went twice. -/
structure OneOwner (p : Pool (ConnectionPool T) (PoolCall T E)) (gone : List T) : Prop where
  queued : p.shared.queued.Nodup
  calls : ∀ (i j : Nat) (c d : PoolCall T E), p.tasks[i]? = some c → p.tasks[j]? = some d →
    ∀ v ∈ c.owns, v ∈ d.owns → i = j
  apart : ∀ c ∈ p.tasks, ∀ v ∈ c.owns, v ∉ p.shared.queued ∧ v ∉ gone
  never : ∀ v ∈ p.shared.queued, v ∉ gone
  once : gone.Nodup

end NetworkSystem
