import NetworkSystem.Cache.Lemmas.History
import NetworkSystem.Cache.Lemmas.Recency
import NetworkSystem.Cache.Lemmas.Interleaving
import NetworkSystem.Cache.Lemmas.Atomic

/-!
# What the cache promises

Whatever is evicted, no answer is stale. The capacity and the order of the evictions depend on the queue: an
insertion of a key that is in the map adds a second place for it to `lru_order`, and an expired entry that
`get` takes out leaves its place behind.
-/

namespace NetworkSystem

open Steps TaskPool

variable {K V : Type} [DecidableEq K]

/-! ## Answers -/

/-- In every run, with every configuration and every clock: what `get` returns is the value of the last
insertion of the key, no removal and no clear came after it, and it is not older than the TTL. -/
theorem cache_answers_current (config : CacheConfig) (ops : List (CacheOp K V)) :
    Always (RecordedCache.step config) (RecordedCache.AnswersCurrent config) RecordedCache.fresh ops := by
  have hfresh : (RecordedCache.fresh : RecordedCache K V).Faithful := nofun
  intro pre s _ hr
  exact (run_invariant (fun _ _ _ h hs => RecordedCache.Faithful.step h hs) hfresh hr).answersCurrent

/-! ## Capacity -/

/-- The number of entries stays within the capacity if and only if every insertion that has to evict finds a
key of the map at the front of `lru_order`. -/
theorem cache_within_capacity_iff (config : CacheConfig) (ops : List (CacheOp K V))
    (hcap : 0 < config.capacity) :
    Always (Cache.step config) (Cache.WithinCapacity config) Cache.new ops ↔
      Along (Cache.step config) (Cache.EvictsEntry config) Cache.new ops := by
  have hnew : (Cache.new : Cache K V).WithinCapacity config := Nat.zero_le _
  refine always_iff_along (fun _ h => h) ?_ ?_ ?_ hnew
  · intro s op s' h hs
    exact h.step_iff hcap hs
  · intro s op s' h hC hs
    exact (h.step_iff hcap hs).mpr hC
  · intro s op _ hs
    exact Cache.evictsEntry_of_lru_disabled (Cache.lru_disabled_of_refused hs)

/-- Two keys fit; a used key stays and the other is evicted. -/
def useAndEvict : List (CacheOp Nat Nat) :=
  [.insert 1 10 0 0, .insert 2 20 0 1, .get 1 2, .insert 3 30 0 3, .get 1 4, .get 2 5]

theorem cache_of_two_within_capacity :
    (∃ s ∈ run (Cache.step { capacity := 2 }) Cache.new useAndEvict, s.entries.keys = [1, 3]) ∧
    Always (Cache.step { capacity := 2 }) (Cache.WithinCapacity { capacity := 2 }) Cache.new useAndEvict :=
  ⟨⟨_, rfl, by decide⟩, (cache_within_capacity_iff { capacity := 2 } useAndEvict (by decide)).mpr (by decide)⟩

/-- The key 1 is inserted twice and takes two places in `lru_order`; the second one is taken for a victim when
the key is no longer in the map. -/
def insertTwice : List (CacheOp Nat Nat) :=
  [.insert 1 10 0 0, .insert 1 11 0 1, .insert 2 20 0 2, .insert 3 30 0 3, .insert 4 40 0 4]

theorem cache_of_two_exceeds_capacity :
    (∃ s ∈ run (Cache.step { capacity := 2 }) Cache.new insertTwice,
      s.entries.keys = [4, 3, 2] ∧ s.lruOrder = [2, 3, 4]) ∧
    ¬ Always (Cache.step { capacity := 2 }) (Cache.WithinCapacity { capacity := 2 }) Cache.new
      insertTwice := by
  refine ⟨⟨_, rfl, by decide⟩, ?_⟩
  intro h
  exact absurd (h.last rfl) (by decide)

/-! ## Least recently used -/

/-- With LRU and without a TTL, every call returns what it returns on a map that evicts the key that was not
used for longest, and the contents are always the same, if and only if every insertion that has to evict finds
at the front of `lru_order` the key of the map whose last place in `lru_order` comes first. -/
theorem cache_refines_lru_iff (config : CacheConfig) (ops : List (CacheOp K V))
    (hlru : config.enableLru = true) (httl : config.ttl = none) (hcap : 0 < config.capacity) :
    (Along (SideBySide.step config) (SideBySide.RepliesAgree config) SideBySide.fresh ops ∧
        Always (SideBySide.step config) SideBySide.SameContents SideBySide.fresh ops) ↔
      Along (SideBySide.step config) (fun s op => s.cache.EvictsOldest config op) SideBySide.fresh ops := by
  have hfresh : (SideBySide.fresh : SideBySide K V).Mirrors := .fresh
  have hkeep : ∀ (s : SideBySide K V) op s', s.Mirrors → s.cache.EvictsOldest config op →
      SideBySide.step config s op = some s' → s'.Mirrors := by
    intro s op s' h hC hs
    obtain ⟨r, ha, rfl⟩ := Option.map_eq_some_iff.mp hs
    exact (h.apply hlru httl hcap ha).2.2 hC
  have hcontents : Always (SideBySide.step config) SideBySide.SameContents SideBySide.fresh ops ↔
      Along (SideBySide.step config) (fun s op => s.cache.EvictsOldest config op) SideBySide.fresh ops := by
    refine always_iff_along (fun _ h => h.same) ?_ hkeep ?_ hfresh
    · intro s op s' h hs
      obtain ⟨r, ha, rfl⟩ := Option.map_eq_some_iff.mp hs
      exact (h.apply hlru httl hcap ha).2.1
    · intro s op _ hs
      have hoff : config.enableLru = false :=
        Cache.lru_disabled_of_refused (Option.map_eq_none_iff.mpr (Option.map_eq_none_iff.mp hs))
      rw [hlru] at hoff
      cases hoff
  constructor
  · exact fun h => hcontents.mp h.2
  · intro hC
    refine ⟨along_of_preserves hkeep ?_ hfresh hC, hcontents.mpr hC⟩
    intro s op h _ r ha
    exact (h.apply hlru httl hcap ha).1

theorem cache_of_two_refines_lru :
    Along (SideBySide.step { capacity := 2, ttl := none })
        (SideBySide.RepliesAgree { capacity := 2, ttl := none }) SideBySide.fresh useAndEvict ∧
      Always (SideBySide.step { capacity := 2, ttl := none }) SideBySide.SameContents SideBySide.fresh
        useAndEvict :=
  (cache_refines_lru_iff { capacity := 2, ttl := none } useAndEvict rfl rfl (by decide)).mpr (by decide)

/-- The key 2 was not used for longest when the key 4 is inserted, and yet it is found afterwards. -/
theorem cache_of_two_keeps_oldest :
    ¬ Along (SideBySide.step { capacity := 2, ttl := none })
      (SideBySide.RepliesAgree { capacity := 2, ttl := none }) SideBySide.fresh
      (insertTwice ++ [.get 2 5]) := by
  intro h
  have hget := h insertTwice (.get 2 5) [] _ rfl rfl _ rfl
  exact absurd hget (by decide)

/-! ## The queue and the map -/

/-- With LRU, in every interleaving of any number of calls: whenever no `clear` is between its locks, the queue
mirrors the map once the call that holds the map is done, if and only if no `insert` finds its key in the map, no
`get` finds its entry expired, and no `clear` empties the queue behind an insertion. Then, whenever all calls have
returned, the queue contains every key of the map once and no other key, as many as there are entries and no more
than fit. -/
theorem cache_queue_mirrors_map (config : CacheConfig) (es : List (Event (CacheRequest K V) (CacheEvent K V)))
    (hlru : config.enableLru = true) :
    (Always (cacheCalls config).step (MirroredOnceDone config) SharedCache.fresh es ↔
      Along (cacheCalls config).step (KeepsMirror config) SharedCache.fresh es) ∧
    (Along (cacheCalls config).step (KeepsMirror config) SharedCache.fresh es →
      Always (cacheCalls config).step
        (fun p => AllReturned p → p.shared.cache.Mirrored ∧
          p.shared.cache.lruOrder.length = p.shared.cache.entries.keys.length ∧
          p.shared.cache.lruOrder.length ≤ max config.capacity 1)
        SharedCache.fresh es) := by
  refine ⟨MirroredOnceDone.always_iff hlru es, fun hC => ?_⟩
  have hfresh : MirrorKept config (SharedCache.fresh : CachePool K V) := .fresh
  refine always_of_preserves (fun p ev p' hk hC hs => (hk.step_iff hlru hs).2 hC) ?_ hfresh hC
  intro p hk hreturned
  have htight := hk.tight_of_returned hreturned
  have hlength := htight.mirrored.length_eq
  exact ⟨htight.mirrored, hlength, hlength.trans_le htight.within⟩

/-- The steps of the task at a place. -/
def onCache (i : Nat) (es : List (CacheEvent Nat Nat)) : List (Event (CacheRequest Nat Nat) (CacheEvent Nat Nat)) :=
  acts i es

def insertAs (i key : Nat) : List (Event (CacheRequest Nat Nat) (CacheEvent Nat Nat)) :=
  .spawn (.insert key 10) :: onCache i [.insert 0 0, .order]

/-- A third key takes the place of the first, and an `insert` that begins under a `clear` ends after it. -/
def clearBeforeQueueing : List (Event (CacheRequest Nat Nat) (CacheEvent Nat Nat)) :=
  insertAs 0 1 ++ insertAs 1 2 ++ .spawn (.insert 3 10) :: onCache 2 [.insert 0 1, .order, .order] ++
    [.spawn .clear, .act 3 .clear, .spawn (.insert 4 10), .act 4 (.insert 0 2), .act 3 .order, .act 4 .order]

theorem cache_queue_mirrors_map_of_four :
    ∃ p ∈ run (cacheCalls { capacity := 2 }).step SharedCache.fresh clearBeforeQueueing,
      p.shared.cache.entries.keys = [4] ∧ p.shared.cache.Mirrored := by
  refine ⟨_, rfl, by decide, ?_⟩
  have h := (cache_queue_mirrors_map { capacity := 2 } clearBeforeQueueing rfl).2 (by decide)
  exact (h.last rfl (by decide)).1

/-- The entry of the key 1 is expired when it is asked for. -/
def getExpired : List (Event (CacheRequest Nat Nat) (CacheEvent Nat Nat)) :=
  insertAs 0 1 ++ [.spawn (.get 1), .act 1 (.get 9)]

/-- The key 2 is queued between the locks of a `clear`. -/
def clearAfterQueueing : List (Event (CacheRequest Nat Nat) (CacheEvent Nat Nat)) :=
  .spawn .clear :: .act 0 .clear :: insertAs 1 2 ++ [.act 0 .order]

/-- A key that is inserted twice has two places in the queue; an expired entry leaves its place; and a `clear`
empties the queue of a key that is in the map. -/
theorem cache_queue_leaves_map :
    (∃ p ∈ run (cacheCalls {}).step SharedCache.fresh (insertAs 0 1 ++ insertAs 1 1),
      AllReturned p ∧ p.shared.cache.entries.keys = [1] ∧ p.shared.cache.lruOrder = [1, 1] ∧
      ¬ p.shared.cache.Mirrored) ∧
    (∃ p ∈ run (cacheCalls { ttl := some 8 }).step SharedCache.fresh getExpired,
      AllReturned p ∧ p.shared.cache.entries.keys = [] ∧ p.shared.cache.lruOrder = [1] ∧
      ¬ p.shared.cache.Mirrored) ∧
    ∃ p ∈ run (cacheCalls {}).step SharedCache.fresh clearAfterQueueing,
      AllReturned p ∧ p.shared.cache.entries.keys = [2] ∧ p.shared.cache.lruOrder = [] ∧
      ¬ p.shared.cache.Mirrored :=
  ⟨⟨_, rfl, by decide⟩, ⟨_, rfl, by decide⟩, ⟨_, rfl, by decide⟩⟩

/-! ## Atomic calls -/

/-- In every interleaving of any number of calls, with LRU of calls other than `clear`, the calls return what they
return when each does all it does at once where it locks the map, a `get_or_insert_with` in its `get` and in its
`insert`; and whenever the map is not locked, the map and the queue are what these phases, one after another, make
of them. -/
theorem cache_calls_atomic (config : CacheConfig) (es : List (Event (CacheRequest K V) (CacheEvent K V)))
    (p : CachePool K V) (hclear : config.enableLru = true → ∀ e ∈ es, e ≠ .spawn .clear)
    (hr : run (cacheCalls config).step SharedCache.fresh es = some p) :
    ∃ a, run (AtomicCache.step config) AtomicCache.new (phases config es) = some a ∧
      (∀ (i : Nat) reply, p.tasks[i]? = some (.returned reply) → a.replies i = some reply) ∧
      (p.shared.entriesLocked = false → p.shared.cache = a.cache) := by
  obtain ⟨a, ha, hrefines⟩ := run_outputs (R := Refines config)
    (D := fun e => config.enableLru = true → e ≠ .spawn .clear)
    (fun p a e p' h hD hs hout => (h.step hD hs).1 hout)
    (fun p a e p' b h hD hs hout => (h.step hD hs).2 b hout)
    Refines.fresh (fun e he hl => hclear hl e he) hr
  refine ⟨a, ha, ?_, hrefines.settled.free⟩
  intro i reply hi
  exact (hrefines.replies i _ hi).symm

/-- Two calls of `get_or_insert_with` both miss, and each inserts what it has computed; a `get` begins before the
second has queued the key. -/
def computeTwice : List (Event (CacheRequest Nat Nat) (CacheEvent Nat Nat)) :=
  [.spawn (.getOrInsertWith 1), .spawn (.getOrInsertWith 1), .act 0 (.get 0), .act 1 (.get 1), .act 1 (.compute 11),
    .act 0 (.compute 10), .act 0 (.insert 0 2), .act 0 .order, .act 1 (.insert 0 3), .spawn (.get 1), .act 1 .order,
    .act 2 (.get 4), .act 2 .order]

theorem cache_calls_atomic_twice :
    ∃ p a, run (cacheCalls { capacity := 2 }).step SharedCache.fresh computeTwice = some p ∧
      run (AtomicCache.step { capacity := 2 }) AtomicCache.new
        [(0, .get 1 true 0), (1, .get 1 true 1), (0, .insert 1 10 (.value 10) 0 2), (1, .insert 1 11 (.value 11) 0 3),
          (2, .get 1 false 4)] = some a ∧
      p.tasks.map CacheCall.reply = [some (.value 10), some (.value 11), some (.found (some 11))] ∧
      p.shared.cache = a.cache := by
  obtain ⟨a, ha, -, hcache⟩ := cache_calls_atomic { capacity := 2 } computeTwice _ (by simp [computeTwice]) rfl
  exact ⟨_, a, rfl, ha, by decide, hcache rfl⟩

end NetworkSystem
