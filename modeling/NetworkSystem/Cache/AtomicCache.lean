import NetworkSystem.Cache.CacheCalls

/-!
# A cache with atomic calls

What the calls on one `Cache` come to: each takes effect at once, where it locks the map, and `get_or_insert_with`
does so twice, in its `get` and in its `insert`. `AtomicCache` runs these phases one after another with the functions
of `Cache.lean`; `phases` are those of a run of `CacheCalls.lean`.
-/

namespace NetworkSystem

open TaskPool

/-- What a call does between locking the map and releasing it. -/
inductive CachePhase (K V : Type) where
  | get (key : K) (orInsert : Bool) (now : Nat)
  | insert (key : K) (value : V) (reply : CacheReply V) (first : K) (now : Nat)
  | remove (key : K)
  | clear
  | pruneExpired (now : K → Nat)

/-- A cache, and what each call has replied. -/
structure AtomicCache (K V : Type) where
  cache : Cache K V
  replies : Nat → Option (CacheReply V)

variable {K V : Type} [DecidableEq K]

/-- What the call replies, unless it has to compute the value first, and the cache after the phase. -/
def CachePhase.apply (config : CacheConfig) (s : Cache K V) :
    CachePhase K V → Option (Option (CacheReply V) × Cache K V)
  | .get key orInsert now =>
      match s.get config key now with
      | (some value, s) => some (some (CacheCall.found orInsert value), s)
      | (none, s) => some (if orInsert then none else some (.found none), s)
  | .insert key value reply first now => (s.insert config key value first now).map fun s => (some reply, s)
  | .remove key => some ((s.remove config key).map (fun value => some (.found value)) id)
  | .clear => some (some .none, s.clear config)
  | .pruneExpired now => some ((s.pruneExpired config now).map (fun n => some (.count n)) id)

namespace AtomicCache

def new : AtomicCache K V := ⟨Cache.new, fun _ => none⟩

/-- The call `e.1` goes through the phase `e.2`. -/
def step (config : CacheConfig) (a : AtomicCache K V) (e : Nat × CachePhase K V) : Option (AtomicCache K V) :=
  (e.2.apply config a.cache).map fun r => ⟨r.2, Function.update a.replies e.1 r.1⟩

end AtomicCache

/-! ## The phases of a run -/

/-- The phase that the call goes through when it locks the map. -/
def CacheCall.phase : CacheCall K V → CacheEvent K V → Option (CachePhase K V)
  | .getting key orInsert, .get now => some (.get key orInsert now)
  | .inserting key value reply, .insert first now => some (.insert key value reply first now)
  | .removing key, .remove => some (.remove key)
  | .clearing, .clear => some .clear
  | .pruning, .prune now => some (.pruneExpired now)
  | _, _ => none

def phaseOf (p : Pool (SharedCache K V) (CacheCall K V)) :
    Event (CacheRequest K V) (CacheEvent K V) → Option (Nat × CachePhase K V)
  | .act i e => (p.tasks[i]?).bind fun c => (c.phase e).map fun phase => (i, phase)
  | .spawn _ => none

/-- The phases of the run, in the order in which the map was locked for them. -/
def phases (config : CacheConfig) (es : List (Event (CacheRequest K V) (CacheEvent K V))) :
    List (Nat × CachePhase K V) :=
  Steps.outputs (cacheCalls config).step phaseOf SharedCache.fresh es

end NetworkSystem
