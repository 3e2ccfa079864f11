import NetworkSystem.Lib.TaskPool

/-!
# The connection pool

`ConnectionPool` and `PooledGuard` of `src/pooling/connection_pool.rs`. Any number of tasks acquire a
connection and drop its guard, prune idle connections or shut the pool down; every access to the state
behind the lock or to the semaphore is a step of its own, and so is the end of every call of the
connection's own code. The background task is a task that prunes again and again.

Times are clock readings and durations in nanoseconds. A walk through the queue reads the clock at every
place anew: for the idle timeout and, some time later, for the lifetime.
-/

namespace NetworkSystem

open TaskPool

structure PoolConfig where
  minSize : Nat := 2
  maxSize : Nat := 10
  idleTimeout : Nat := 600000000000
  maxLifetime : Option Nat := some 3600000000000
  deriving Repr, DecidableEq

/-- A connection. When `T::create` returned it and when it was last put into the queue are not kept by the
code; nothing but the statements about a run reads them. -/
structure Connection (T : Type) where
  value : T
  born : Nat
  idleSince : Nat
  deriving Repr, DecidableEq

structure PooledConnection (T : Type) where
  connection : Connection T
  createdAt : Nat
  lastUsed : Nat
  deriving Repr, DecidableEq

namespace PooledConnection

variable {T : Type}

def new (connection : Connection T) (now : Nat) : PooledConnection T :=
  { connection := { connection with idleSince := now }, createdAt := now, lastUsed := now }

/-- The clock is read at `now`, and again `later` after that. -/
def isExpired (config : PoolConfig) (pooled : PooledConnection T) (now later : Nat) : Bool :=
  if now - pooled.lastUsed > config.idleTimeout then true
  else
    match config.maxLifetime with
    | some maxLifetime => decide (now + later - pooled.createdAt > maxLifetime)
    | none => false

end PooledConnection

/-- `PoolState` and the permits of the semaphore. -/
structure ConnectionPool (T : Type) where
  available : List (PooledConnection T) := []
  totalConnections : Nat := 0
  permits : Nat
  deriving Repr, DecidableEq

/-- The readings of the clock at each place of the queue. -/
abbrev SweepClock : Type := Nat → Nat × Nat

namespace ConnectionPool

variable {T : Type}

def new (config : PoolConfig) : ConnectionPool T := { permits := config.maxSize }

def toRemove (config : PoolConfig) (s : ConnectionPool T) (clock : SweepClock) : List Nat :=
  (s.available.zipIdx.filter fun pooled =>
    pooled.1.isExpired config (clock pooled.2).1 (clock pooled.2).2).map Prod.snd

def removeAll (s : ConnectionPool T) : List Nat → ConnectionPool T × List (Connection T)
  | [] => (s, [])
  | idx :: rest =>
      match s.available[idx]? with
      | some pooled =>
          ({ s with available := s.available.eraseIdx idx
                    totalConnections := s.totalConnections - 1 }.removeAll rest).map id
            (pooled.connection :: ·)
      | none => s.removeAll rest

/-- The places are taken from the back, so that those before stay as they are. -/
def removeExpired (config : PoolConfig) (s : ConnectionPool T) (clock : SweepClock) :
    ConnectionPool T × List (Connection T) :=
  s.removeAll (s.toRemove config clock).reverse

end ConnectionPool

inductive PoolError (E : Type) where
  | create (err : E)
  | timeout
  deriving Repr, DecidableEq

inductive PoolCallKind where
  | acquire
  | pruneIdle
  | shutdown
  deriving Repr, DecidableEq

inductive PoolCall (T E : Type) where
  | acquiring
  | permitted
  /-- `acquire` closes expired connections, `left` of them, before it goes on with what it has taken. -/
  | closing (taken : Option (Connection T)) (left : Nat)
  | validating (connection : Connection T)
  | creating
  /-- `T::create` has returned; the connection is not counted yet. -/
  | created (connection : Connection T)
  /-- `acquire` has returned the guard, and it is live. -/
  | held (connection : Connection T)
  /-- The drop of the guard has put the connection back; its permit is not free yet. -/
  | returned
  | released
  | failed (err : PoolError E)
  | dropped
  | pruning
  /-- `prune_idle` closes expired connections; it will create `needed`. -/
  | sweeping (needed left : Nat)
  | filling (needed : Nat)
  /-- `T::create` has returned for `prune_idle`, and `needed` more are to be created. -/
  | filled (connection : Connection T) (needed : Nat)
  | pruned
  | shutting
  | draining (left : Nat)
  | shut
  deriving Repr, DecidableEq

inductive PoolEvent (T E : Type) where
  | permit
  | timeout
  /-- The first lock of the call; the walk through the queue reads the clock. -/
  | lock (clock : SweepClock)
  | closed
  | validated (valid : Bool)
  | create (result : Except E T) (now : Nat)
  /-- The lock of `create_connection`. -/
  | count
  /-- The lock under which a connection is put into the queue. -/
  | push (now : Nat)
  | release
  | drop

namespace PoolCall

variable {T E : Type}

def close (taken : Option (Connection T)) (left : Nat) : PoolCall T E :=
  match left, taken with
  | left + 1, _ => .closing taken (left + 1)
  | 0, some connection => .validating connection
  | 0, none => .creating

def fill (needed : Nat) : PoolCall T E :=
  match needed with
  | needed + 1 => .filling (needed + 1)
  | 0 => .pruned

/-- `prune_idle` after its first lock. -/
def sweep (needed left : Nat) : PoolCall T E :=
  match left with
  | left + 1 => .sweeping needed (left + 1)
  | 0 => fill needed

def drain (left : Nat) : PoolCall T E :=
  match left with
  | left + 1 => .draining (left + 1)
  | 0 => .shut

end PoolCall

namespace ConnectionPool

variable {T E : Type}

/-- The block under the lock of `acquire`; the connection is unwrapped after `touch`. -/
def takeAvailable (config : PoolConfig) (s : ConnectionPool T) (clock : SweepClock) :
    ConnectionPool T × PoolCall T E :=
  let (s, expired) := s.removeExpired config clock
  match s.available with
  | pooled :: available => ({ s with available }, .close (some pooled.connection) expired.length)
  | [] => (s, .close none expired.length)

def sizeUp (config : PoolConfig) (s : ConnectionPool T) (clock : SweepClock) :
    ConnectionPool T × PoolCall T E :=
  let (s, expired) := s.removeExpired config clock
  (s, .sweep (config.minSize - s.totalConnections) expired.length)

def takeAll (s : ConnectionPool T) : ConnectionPool T × PoolCall T E :=
  ({ s with available := [], totalConnections := s.totalConnections - s.available.length },
    .drain s.available.length)

def callStep (config : PoolConfig) (s : ConnectionPool T) :
    PoolCall T E → PoolEvent T E → Option (ConnectionPool T × PoolCall T E)
  | .acquiring, .permit =>
      if s.permits = 0 then none else some ({ s with permits := s.permits - 1 }, .permitted)
  | .acquiring, .timeout => some (s, .failed .timeout)
  | .acquiring, .drop => some (s, .dropped)
  | .permitted, .lock clock => some (s.takeAvailable config clock)
  | .closing taken left, .closed => some (s, .close taken (left - 1))
  | .validating connection, .validated true => some (s, .held connection)
  | .validating _, .validated false => some (s, .creating)
  | .creating, .create (.ok value) now =>
      some (s, .created { value, born := now, idleSince := now })
  -- `?` leaves `acquire`, and the permit is freed
  | .creating, .create (.error err) _ =>
      some ({ s with permits := s.permits + 1 }, .failed (.create err))
  | .created connection, .count =>
      some ({ s with totalConnections := s.totalConnections + 1 }, .held connection)
  | .closing _ _, .drop | .validating _, .drop | .creating, .drop =>
      some ({ s with permits := s.permits + 1 }, .dropped)
  | .held connection, .push now =>
      some ({ s with available := s.available ++ [PooledConnection.new connection now] }, .returned)
  | .returned, .release => some ({ s with permits := s.permits + 1 }, .released)
  | .pruning, .lock clock => some (s.sizeUp config clock)
  | .sweeping needed left, .closed => some (s, .sweep needed (left - 1))
  | .filling needed, .create (.ok value) now =>
      some (s, .filled { value, born := now, idleSince := now } (needed - 1))
  | .filling needed, .create (.error _) _ => some (s, .fill (needed - 1))
  | .filled connection needed, .push now =>
      some ({ s with available := s.available ++ [PooledConnection.new connection now]
                     totalConnections := s.totalConnections + 1 }, .fill needed)
  | .pruning, .drop | .sweeping _ _, .drop | .filling _, .drop => some (s, .dropped)
  | .shutting, .lock _ => some s.takeAll
  | .draining left, .closed => some (s, .drain (left - 1))
  | .shutting, .drop | .draining _, .drop => some (s, .dropped)
  | _, _ => none

end ConnectionPool

def PoolCallKind.start {T E : Type} : PoolCallKind → PoolCall T E
  | .acquire => .acquiring
  | .pruneIdle => .pruning
  | .shutdown => .shutting

def poolCalls {T E : Type} (config : PoolConfig) :
    Program (ConnectionPool T) (PoolCall T E) PoolCallKind (PoolEvent T E) where
  start := PoolCallKind.start
  act := ConnectionPool.callStep config

def ConnectionPool.fresh {T E : Type} (config : PoolConfig) : Pool (ConnectionPool T) (PoolCall T E) :=
  ⟨.new config, []⟩

end NetworkSystem
