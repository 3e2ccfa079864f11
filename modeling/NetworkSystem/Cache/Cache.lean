import NetworkSystem.Lib.Steps
import Mathlib.Data.List.AList

/-!
# The cache

`Cache` of `src/pooling/cache.rs`: a hash map of entries and, beside it, a queue of keys from which the
eviction takes its victims. Every function but `clear` and `get_or_insert_with` holds the lock of the map
for its whole body; a run is a list of calls, each at its end before the next begins.

The order in which a hash map is walked is not determined. Where a function depends on it the call carries
what the walk yields: the first key, or the reading of the clock when the walk is at a key. Times are clock
readings in nanoseconds; the map has no order, so that its list of entries may stand in any.
-/

namespace NetworkSystem

structure CacheConfig where
  capacity : Nat := 1000
  ttl : Option Nat := some 300000000000
  enableLru : Bool := true
  deriving Repr, DecidableEq

structure CacheEntry (V : Type) where
  value : V
  createdAt : Nat
  accessCount : UInt64 := 0
  deriving Repr, DecidableEq

namespace CacheEntry

variable {V : Type}

def isExpired (entry : CacheEntry V) (ttl now : Nat) : Bool := decide (now - entry.createdAt > ttl)

def touch (entry : CacheEntry V) : CacheEntry V := { entry with accessCount := entry.accessCount + 1 }

end CacheEntry

structure Cache (K V : Type) where
  entries : AList fun _ : K => CacheEntry V
  lruOrder : List K

structure CacheStats where
  size : Nat
  capacity : Nat
  totalAccesses : UInt64
  deriving Repr, DecidableEq

namespace Cache

variable {K V : Type} [DecidableEq K]

def new : Cache K V := ⟨∅, []⟩

/-- The key at its first place in `lru_order` goes to the back. -/
def moveToBack (s : Cache K V) (key : K) : Cache K V :=
  if key ∈ s.lruOrder then { s with lruOrder := s.lruOrder.erase key ++ [key] } else s

/-- The key leaves the map, and its first place in `lru_order` is freed. -/
def removeEntry (config : CacheConfig) (s : Cache K V) (key : K) : Cache K V :=
  { entries := s.entries.erase key
    lruOrder := if config.enableLru then s.lruOrder.erase key else s.lruOrder }

def get (config : CacheConfig) (s : Cache K V) (key : K) (now : Nat) : Option V × Cache K V :=
  match s.entries.lookup key with
  | some entry =>
      if config.ttl.any fun ttl => entry.isExpired ttl now then
        (none, { s with entries := s.entries.erase key })
      else
        let s := { s with entries := s.entries.insert key entry.touch }
        (some entry.value, if config.enableLru then s.moveToBack key else s)
  | none => (none, s)

/-- `first` is what `entries.keys().next()` yields for a map that is not empty. -/
def evictOne (config : CacheConfig) (s : Cache K V) (first : K) : Option (Cache K V) :=
  if config.enableLru then
    match s.lruOrder with
    | key :: lruOrder => some { entries := s.entries.erase key, lruOrder }
    | [] => some s
  else if s.entries.keys = [] then some s
  else if first ∈ s.entries then some { s with entries := s.entries.erase first }
  else none

def insert (config : CacheConfig) (s : Cache K V) (key : K) (value : V) (first : K) (now : Nat) :
    Option (Cache K V) :=
  (if s.entries.keys.length ≥ config.capacity ∧ key ∉ s.entries then s.evictOne config first
    else some s).map fun s =>
      { entries := s.entries.insert key { value, createdAt := now }
        lruOrder := if config.enableLru then s.lruOrder ++ [key] else s.lruOrder }

def remove (config : CacheConfig) (s : Cache K V) (key : K) : Option V × Cache K V :=
  match s.entries.lookup key with
  | some entry => (some entry.value, s.removeEntry config key)
  | none => (none, s)

def clear (config : CacheConfig) (s : Cache K V) : Cache K V :=
  { entries := ∅, lruOrder := if config.enableLru then [] else s.lruOrder }

def stats (config : CacheConfig) (s : Cache K V) : CacheStats where
  size := s.entries.keys.length
  capacity := config.capacity
  totalAccesses := s.entries.entries.foldl (fun total entry => total + entry.2.accessCount) 0

def expiredKeys (s : Cache K V) (ttl : Nat) (now : K → Nat) : List K :=
  s.entries.keys.filter fun key => (s.entries.lookup key).any fun entry => entry.isExpired ttl (now key)

def pruneExpired (config : CacheConfig) (s : Cache K V) (now : K → Nat) : Nat × Cache K V :=
  match config.ttl with
  | some ttl =>
      ((s.expiredKeys ttl now).length, (s.expiredKeys ttl now).foldl (removeEntry config) s)
  | none => (0, s)

/-- `value` is what `f()` returns, `asked` and `now` are the readings of `get` and of `insert`. -/
def getOrInsertWith (config : CacheConfig) (s : Cache K V) (key : K) (asked : Nat) (value : V) (first : K)
    (now : Nat) : Option (V × Cache K V) :=
  match s.get config key asked with
  | (some value, s) => some (value, s)
  | (none, s) => (s.insert config key value first now).map fun s => (value, s)

end Cache

/-! ## Runs -/

inductive CacheOp (K V : Type) where
  | get (key : K) (now : Nat)
  | insert (key : K) (value : V) (first : K) (now : Nat)
  | remove (key : K)
  | clear
  | pruneExpired (now : K → Nat)
  | getOrInsertWith (key : K) (asked : Nat) (value : V) (first : K) (now : Nat)

inductive CacheReply (V : Type) where
  | none
  | found (value : Option V)
  | value (value : V)
  | count (n : Nat)
  deriving Repr, DecidableEq

namespace Cache

variable {K V : Type} [DecidableEq K]

def apply (config : CacheConfig) (s : Cache K V) : CacheOp K V → Option (CacheReply V × Cache K V)
  | .get key now => some ((s.get config key now).map .found id)
  | .insert key value first now => (s.insert config key value first now).map fun s => (.none, s)
  | .remove key => some ((s.remove config key).map .found id)
  | .clear => some (.none, s.clear config)
  | .pruneExpired now => some ((s.pruneExpired config now).map .count id)
  | .getOrInsertWith key asked value first now =>
      (s.getOrInsertWith config key asked value first now).map fun r => (.value r.1, r.2)

def step (config : CacheConfig) (s : Cache K V) (op : CacheOp K V) : Option (Cache K V) :=
  (s.apply config op).map Prod.snd

end Cache

end NetworkSystem
