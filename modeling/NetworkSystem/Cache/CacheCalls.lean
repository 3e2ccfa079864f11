import NetworkSystem.Cache.Cache
import NetworkSystem.Lib.TaskPool

/-!
# Calls on one cache

Any number of tasks call the functions of one `Cache` of `src/pooling/cache.rs`. The map and the queue have a
lock each. `get`, `insert`, `remove` and `prune_expired` hold the lock of the map for their whole body and take
that of the queue in it, for one access at a time; `clear` has released the first when it takes the second.
`get_or_insert_with` holds no lock between its `get` and its `insert`.

A step of a call goes from one lock to the next. The readings of the clock and the first key of the map are
those of `Cache.lean`.
-/

namespace NetworkSystem

open TaskPool

inductive CacheRequest (K V : Type) where
  | get (key : K)
  | insert (key : K) (value : V)
  | remove (key : K)
  | clear
  | pruneExpired
  | getOrInsertWith (key : K)
  deriving Repr, DecidableEq

inductive CacheCall (K V : Type) where
  /-- `get`, called or in `get_or_insert_with`, before the lock of the map. -/
  | getting (key : K) (orInsert : Bool)
  /-- `get` has found the entry and is before the lock of the queue. -/
  | moving (key : K) (reply : CacheReply V)
  /-- `f()`. -/
  | computing (key : K)
  | inserting (key : K) (value : V) (reply : CacheReply V)
  /-- `evict_one` before the lock of the queue; the entry to come is of time `now`. -/
  | evicting (key : K) (value : V) (now : Nat) (reply : CacheReply V)
  /-- The entry is in the map, and the lock of the queue is next. -/
  | queueing (key : K) (reply : CacheReply V)
  | removing (key : K)
  /-- The entry is out of the map, and the lock of the queue is next. -/
  | unqueueing (key : K) (reply : CacheReply V)
  | clearing
  /-- `clear` has released the map, and the lock of the queue is next. -/
  | clearingQueue
  | pruning
  /-- The entry of `key` is out of the map, and the lock of the queue is next; `keys` are still to be pruned. -/
  | pruningQueue (key : K) (keys : List K) (count : Nat)
  | returned (reply : CacheReply V)
  deriving Repr, DecidableEq

inductive CacheEvent (K V : Type) where
  /-- The lock of the map, in each of the functions. -/
  | get (now : Nat)
  | insert (first : K) (now : Nat)
  | remove
  | clear
  | prune (now : K → Nat)
  /-- The lock of the queue. -/
  | order
  | compute (value : V)

structure SharedCache (K V : Type) where
  cache : Cache K V
  entriesLocked : Bool := false

namespace CacheCall

variable {K V : Type}

def start : CacheRequest K V → CacheCall K V
  | .get key => .getting key false
  | .insert key value => .inserting key value .none
  | .remove key => .removing key
  | .clear => .clearing
  | .pruneExpired => .pruning
  | .getOrInsertWith key => .getting key true

def found (orInsert : Bool) (value : V) : CacheReply V := if orInsert then .value value else .found (some value)

def missed (key : K) (orInsert : Bool) : CacheCall K V :=
  if orInsert then .computing key else .returned (.found none)

end CacheCall

namespace SharedCache

variable {K V : Type} [DecidableEq K]

def get (config : CacheConfig) (s : SharedCache K V) (key : K) (orInsert : Bool) (now : Nat) :
    SharedCache K V × CacheCall K V :=
  match s.cache.entries.lookup key with
  | some entry =>
      if config.ttl.any fun ttl => entry.isExpired ttl now then
        ({ s with cache := { s.cache with entries := s.cache.entries.erase key } }, .missed key orInsert)
      else
        let cache := { s.cache with entries := s.cache.entries.insert key entry.touch }
        if config.enableLru then
          ({ cache, entriesLocked := true }, .moving key (CacheCall.found orInsert entry.value))
        else ({ s with cache }, .returned (CacheCall.found orInsert entry.value))
  | none => (s, .missed key orInsert)

/-- `entries.insert`, and on to the lock of the queue. -/
def place (config : CacheConfig) (cache : Cache K V) (key : K) (value : V) (now : Nat) (reply : CacheReply V) :
    SharedCache K V × CacheCall K V :=
  let cache := { cache with entries := cache.entries.insert key { value, createdAt := now } }
  if config.enableLru then ({ cache, entriesLocked := true }, .queueing key reply)
  else ({ cache }, .returned reply)

def insert (config : CacheConfig) (s : SharedCache K V) (key : K) (value : V) (reply : CacheReply V) (first : K)
    (now : Nat) : Option (SharedCache K V × CacheCall K V) :=
  if s.cache.entries.keys.length ≥ config.capacity ∧ key ∉ s.cache.entries then
    if config.enableLru then some ({ s with entriesLocked := true }, .evicting key value now reply)
    else (s.cache.evictOne config first).map fun cache => place config cache key value now reply
  else some (place config s.cache key value now reply)

def remove (config : CacheConfig) (s : SharedCache K V) (key : K) : SharedCache K V × CacheCall K V :=
  match s.cache.entries.lookup key with
  | some entry =>
      let cache := { s.cache with entries := s.cache.entries.erase key }
      if config.enableLru then
        ({ cache, entriesLocked := true }, .unqueueing key (.found (some entry.value)))
      else ({ s with cache }, .returned (.found (some entry.value)))
  | none => (s, .returned (.found none))

def clear (config : CacheConfig) (s : SharedCache K V) : SharedCache K V × CacheCall K V :=
  ({ s with cache := { s.cache with entries := ∅ } },
    if config.enableLru then .clearingQueue else .returned .none)

/-- The next turn of the loop of `prune_expired`, and on to the lock of the queue. -/
def pruneNext (cache : Cache K V) (keys : List K) (count : Nat) : SharedCache K V × CacheCall K V :=
  match keys with
  | [] => ({ cache }, .returned (.count count))
  | key :: keys =>
      ({ cache := { cache with entries := cache.entries.erase key }, entriesLocked := true },
        .pruningQueue key keys count)

def prune (config : CacheConfig) (s : SharedCache K V) (expiredKeys : List K) :
    SharedCache K V × CacheCall K V :=
  if config.enableLru then pruneNext s.cache expiredKeys expiredKeys.length
  else
    ({ cache := expiredKeys.foldl (Cache.removeEntry config) s.cache },
      .returned (.count expiredKeys.length))

/-- With LRU, `evict_one` does not ask for the first key of the map. -/
def callStep (config : CacheConfig) (s : SharedCache K V) :
    CacheCall K V → CacheEvent K V → Option (SharedCache K V × CacheCall K V)
  | .getting key orInsert, .get now => if s.entriesLocked then none else some (s.get config key orInsert now)
  | .moving key reply, .order => some ({ cache := s.cache.moveToBack key }, .returned reply)
  | .computing key, .compute value => some (s, .inserting key value (.value value))
  | .inserting key value reply, .insert first now =>
      if s.entriesLocked then none else s.insert config key value reply first now
  | .evicting key value now reply, .order =>
      (s.cache.evictOne config key).map fun cache => place config cache key value now reply
  | .queueing key reply, .order =>
      some ({ cache := { s.cache with lruOrder := s.cache.lruOrder ++ [key] } }, .returned reply)
  | .removing key, .remove => if s.entriesLocked then none else some (s.remove config key)
  | .unqueueing key reply, .order =>
      some ({ cache := { s.cache with lruOrder := s.cache.lruOrder.erase key } }, .returned reply)
  | .clearing, .clear => if s.entriesLocked then none else some (s.clear config)
  | .clearingQueue, .order => some ({ s with cache := { s.cache with lruOrder := [] } }, .returned .none)
  | .pruning, .prune now =>
      match config.ttl with
      | some ttl =>
          if s.entriesLocked then none else some (s.prune config (s.cache.expiredKeys ttl now))
      | none => some (s, .returned (.count 0))
  | .pruningQueue key keys count, .order =>
      some (pruneNext { s.cache with lruOrder := s.cache.lruOrder.erase key } keys count)
  | _, _ => none

end SharedCache

def cacheCalls {K V : Type} [DecidableEq K] (config : CacheConfig) :
    Program (SharedCache K V) (CacheCall K V) (CacheRequest K V) (CacheEvent K V) where
  start := CacheCall.start
  act := SharedCache.callStep config

def SharedCache.fresh {K V : Type} [DecidableEq K] : Pool (SharedCache K V) (CacheCall K V) :=
  ⟨{ cache := Cache.new }, []⟩

end NetworkSystem
