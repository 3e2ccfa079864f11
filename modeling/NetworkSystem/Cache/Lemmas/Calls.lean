import NetworkSystem.Cache.CacheCalls
import NetworkSystem.Cache.Lemmas.Mirror

/-!
# The steps of the calls on a cache

The call that holds the lock of the map has still to take its steps of the queue. Once it has taken them
(`settle`), the cache is what the function of `Cache.lean` makes of it: `CallStep` says so for every step. Only a
`clear`, which does not hold the map when it clears the queue, comes in between.
-/

namespace NetworkSystem

open Cache

variable {K V : Type} [DecidableEq K]

namespace CacheCall

/-- The call holds the lock of the map. -/
def holds : CacheCall K V → Bool
  | .moving _ _ | .evicting _ _ _ _ | .queueing _ _ | .unqueueing _ _ | .pruningQueue _ _ _ => true
  | _ => false

/-- A `clear` between its two locks. -/
def clears : CacheCall K V → Bool
  | .clearingQueue => true
  | _ => false

/-- The cache after the steps that the call has still to take under the lock of the map. -/
def settle (config : CacheConfig) (s : Cache K V) : CacheCall K V → Cache K V
  | .moving key _ => s.moveToBack key
  | .evicting key value now _ => ((s.evictOne config key).getD s).put config key value now
  | .queueing key _ => { s with lruOrder := s.lruOrder ++ [key] }
  | .unqueueing key _ => { s with lruOrder := s.lruOrder.erase key }
  | .pruningQueue key keys _ => keys.foldl (removeEntry config) { s with lruOrder := s.lruOrder.erase key }
  | _ => s

/-- What is to be queued is in the map. -/
def Placed (s : Cache K V) : CacheCall K V → Prop
  | .queueing key _ => key ∈ s.entries
  | _ => True

end CacheCall

/-- The call takes the lock of the map where the lock was free, and will leave the cache as `after`. -/
structure Enters (config : CacheConfig) (s s' : SharedCache K V) (c' : CacheCall K V) (after : Cache K V) :
    Prop where
  free : s.entriesLocked = false
  locked : s'.entriesLocked = c'.holds
  clears : c'.clears = false
  placed : c'.Placed s'.cache
  settled : c'.settle config s'.cache = after

inductive CallStep (config : CacheConfig) (s : SharedCache K V) :
    CacheCall K V → CacheEvent K V → SharedCache K V → CacheCall K V → Prop
  | get {key : K} {orInsert : Bool} {now : Nat} {s' : SharedCache K V} {c' : CacheCall K V}
      (h : Enters config s s' c' (s.cache.get config key now).2) :
      CallStep config s (.getting key orInsert) (.get now) s' c'
  | compute {key : K} {value : V} :
      CallStep config s (.computing key) (.compute value) s (.inserting key value (.value value))
  | insert {key : K} {value : V} {reply : CacheReply V} {first : K} {now : Nat} {s' : SharedCache K V}
      {c' : CacheCall K V} {after : Cache K V} (h : Enters config s s' c' after)
      (hi : InsertStep config s.cache key value first now after) :
      CallStep config s (.inserting key value reply) (.insert first now) s' c'
  | remove {key : K} {s' : SharedCache K V} {c' : CacheCall K V}
      (h : Enters config s s' c' (s.cache.remove config key).2) :
      CallStep config s (.removing key) .remove s' c'
  | noTtl {now : K → Nat} : CallStep config s .pruning (.prune now) s (.returned (.count 0))
  | prune {now : K → Nat} {s' : SharedCache K V} {c' : CacheCall K V}
      (h : Enters config s s' c' (s.cache.pruneExpired config now).2) :
      CallStep config s .pruning (.prune now) s' c'
  | order {c : CacheCall K V} {s' : SharedCache K V} {c' : CacheCall K V} (hc : c.holds = true)
      (hlocked : s'.entriesLocked = c'.holds) (hclears : c'.clears = false) (hplaced : c'.Placed s'.cache)
      (hsettled : c'.settle config s'.cache = c.settle config s.cache) : CallStep config s c .order s' c'
  | clear (hfree : s.entriesLocked = false) :
      CallStep config s .clearing .clear { s with cache := { s.cache with entries := ∅ } } .clearingQueue
  | clearQueue :
      CallStep config s .clearingQueue .order { s with cache := { s.cache with lruOrder := [] } }
        (.returned .none)

namespace SharedCache

variable {config : CacheConfig} {s s' : SharedCache K V} {c c' : CacheCall K V} {e : CacheEvent K V}
  {cache : Cache K V} {key first : K} {value : V} {reply : CacheReply V} {now : Nat}

theorem get_enters {orInsert : Bool} (hl : config.enableLru = true) (hfree : s.entriesLocked = false) :
    Enters config s (s.get config key orInsert now).1 (s.get config key orInsert now).2
      (s.cache.get config key now).2 := by
  have hmissed : ∀ s' : SharedCache K V, s'.entriesLocked = false →
      Enters config s s' (.missed key orInsert) s'.cache := by
    intro s' hs'
    cases orInsert <;> exact ⟨hfree, hs', rfl, trivial, rfl⟩
  unfold SharedCache.get Cache.get
  cases s.cache.entries.lookup key with
  | none => exact hmissed s hfree
  | some entry =>
      dsimp only
      split
      · exact hmissed _ hfree
      · exact ⟨hfree, rfl, rfl, trivial, rfl⟩

theorem place_settles (hl : config.enableLru = true) (cache : Cache K V) (key : K) (value : V) (now : Nat)
    (reply : CacheReply V) :
    let r := place config cache key value now reply
    r.1.entriesLocked = r.2.holds ∧ r.2.clears = false ∧ r.2.Placed r.1.cache ∧
      r.2.settle config r.1.cache = cache.put config key value now := by
  unfold place put
  rw [if_pos hl, if_pos hl]
  exact ⟨rfl, rfl, (AList.mem_insert _).mpr (Or.inl rfl), rfl⟩

theorem insert_enters (hl : config.enableLru = true) (hfree : s.entriesLocked = false)
    (h : s.insert config key value reply first now = some (s', c')) :
    ∃ after, Enters config s s' c' after ∧ InsertStep config s.cache key value first now after := by
  unfold SharedCache.insert at h
  split at h
  · rename_i hfull
    cases h
    -- an eviction from the queue does not ask for the first key of the map
    have hsame : s.cache.evictOne config key = s.cache.evictOne config first := by
      simp only [evictOne, hl, ↓reduceIte]
    cases he : s.cache.evictOne config first with
    | none =>
        unfold evictOne at he
        rw [if_pos hl] at he
        split at he <;> cases he
    | some cache =>
        refine ⟨_, ⟨hfree, rfl, rfl, trivial, rfl⟩, ?_⟩
        rw [CacheCall.settle, hsame, he]
        exact .full hfull.1 hfull.2 (evictOne_step he)
  · rename_i hroom
    obtain ⟨hlocked, hclears, hplaced, hsettled⟩ := place_settles hl s.cache key value now reply
    rw [Option.some.inj h] at hlocked hclears hplaced hsettled
    exact ⟨_, ⟨hfree, hlocked, hclears, hplaced, hsettled⟩, .room hroom⟩

theorem insert_ne_none (hl : config.enableLru = true) :
    s.insert config key value reply first now ≠ none := by
  unfold SharedCache.insert
  simp only [hl, ↓reduceIte]
  split <;> exact Option.some_ne_none _

theorem remove_enters (hl : config.enableLru = true) (hfree : s.entriesLocked = false) :
    Enters config s (s.remove config key).1 (s.remove config key).2 (s.cache.remove config key).2 := by
  unfold SharedCache.remove Cache.remove
  cases s.cache.entries.lookup key with
  | none => exact ⟨hfree, hfree, rfl, trivial, rfl⟩
  | some entry =>
      dsimp only
      rw [if_pos hl, removeEntry, if_pos hl]
      exact ⟨hfree, rfl, rfl, trivial, rfl⟩

theorem pruneNext_settles (hl : config.enableLru = true) (cache : Cache K V) (keys : List K) (count : Nat) :
    let r := pruneNext cache keys count
    r.1.entriesLocked = r.2.holds ∧ r.2.clears = false ∧ r.2.Placed r.1.cache ∧
      r.2.settle config r.1.cache = keys.foldl (removeEntry config) cache := by
  cases keys with
  | nil => exact ⟨rfl, rfl, trivial, rfl⟩
  | cons key keys =>
      refine ⟨rfl, rfl, trivial, ?_⟩
      rw [pruneNext, List.foldl_cons, removeEntry, if_pos hl]
      rfl

theorem prune_enters {ttl : Nat} (hl : config.enableLru = true) (hfree : s.entriesLocked = false)
    (ht : config.ttl = some ttl) (now : K → Nat) :
    Enters config s (s.prune config (s.cache.expiredKeys ttl now)).1
      (s.prune config (s.cache.expiredKeys ttl now)).2 (s.cache.pruneExpired config now).2 := by
  unfold SharedCache.prune Cache.pruneExpired
  rw [if_pos hl, ht]
  obtain ⟨hlocked, hclears, hplaced, hsettled⟩ :=
    pruneNext_settles hl s.cache (s.cache.expiredKeys ttl now) (s.cache.expiredKeys ttl now).length
  exact ⟨hfree, hlocked, hclears, hplaced, hsettled⟩

theorem callStep_step (hl : config.enableLru = true) (h : s.callStep config c e = some (s', c')) :
    CallStep config s c e s' c' := by
  unfold callStep at h
  split at h
  · split at h
    · cases h
    · rename_i key orInsert now hfree
      have henters : Enters config s (s.get config key orInsert now).1 (s.get config key orInsert now).2
        (s.cache.get config key now).2 := get_enters hl (by simpa using hfree)
      rw [Option.some.inj h] at henters
      exact .get henters
  · cases h
    exact .order rfl rfl rfl trivial rfl
  · cases h
    exact .compute
  · split at h
    · cases h
    · rename_i hfree
      obtain ⟨after, henters, hi⟩ := insert_enters hl (by simpa using hfree) h
      exact .insert henters hi
  · rename_i key value now reply
    obtain ⟨cache, he, hplace⟩ := Option.map_eq_some_iff.mp h
    obtain ⟨hlocked, hclears, hplaced, hsettled⟩ := place_settles hl cache key value now reply
    rw [hplace] at hlocked hclears hplaced hsettled
    refine .order rfl hlocked hclears hplaced ?_
    rw [hsettled, CacheCall.settle, he, Option.getD_some]
  · cases h
    exact .order rfl rfl rfl trivial rfl
  · split at h
    · cases h
    · rename_i key hfree
      have henters : Enters config s (s.remove config key).1 (s.remove config key).2
        (s.cache.remove config key).2 := remove_enters hl (by simpa using hfree)
      rw [Option.some.inj h] at henters
      exact .remove henters
  · cases h
    exact .order rfl rfl rfl trivial rfl
  · split at h
    · cases h
    · rename_i hfree
      unfold SharedCache.clear at h
      rw [if_pos hl] at h
      cases h
      exact .clear (by simpa using hfree)
  · cases h
    exact .clearQueue
  · rename_i now
    split at h
    · rename_i ttl ht
      split at h
      · cases h
      · rename_i hfree
        have henters := prune_enters hl (by simpa using hfree) ht now
        rw [Option.some.inj h] at henters
        exact .prune henters
    · cases h
      exact .noTtl
  · rename_i key keys count
    obtain ⟨hlocked, hclears, hplaced, hsettled⟩ :=
      pruneNext_settles hl { s.cache with lruOrder := s.cache.lruOrder.erase key } keys count
    rw [Option.some.inj h] at hlocked hclears hplaced hsettled
    exact .order rfl hlocked hclears hplaced hsettled
  · cases h

end SharedCache

end NetworkSystem
