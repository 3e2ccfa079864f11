import NetworkSystem.Cache.AtomicCache
import NetworkSystem.Cache.Lemmas.Interleaving

/-!
# The calls are atomic

A call has done all that it does to the map when it releases the lock of it, and the others find the queue as the call
leaves it: once the call that holds the lock is done, the cache is what the phases so far make of it. A `clear` with
LRU is the exception, as it takes the lock of the queue after it has released that of the map.
-/

namespace NetworkSystem

open TaskPool Steps Cache

variable {K V : Type} [DecidableEq K] {config : CacheConfig} {s s' : SharedCache K V} {c c' : CacheCall K V}
  {e : CacheEvent K V} {key first : K} {value : V} {now : Nat} {phase : CachePhase K V}

namespace CacheCall

/-- What the call will have replied, once that is settled. -/
def reply : CacheCall K V → Option (CacheReply V)
  | .moving _ reply | .evicting _ _ _ reply | .queueing _ reply | .unqueueing _ reply | .returned reply => some reply
  | .pruningQueue _ _ count => some (.count count)
  | .clearingQueue => some .none
  | _ => none

/-- The call locks the queue only with LRU, and only while it holds the map. -/
structure Regular (config : CacheConfig) (c : CacheCall K V) : Prop where
  holds : c.holds = true → config.enableLru = true
  clears : c.clears = false
  clear : config.enableLru = true → c ≠ .clearing

omit [DecidableEq K] in
theorem Regular.returned (reply : CacheReply V) : (.returned reply : CacheCall K V).Regular config :=
  ⟨fun h => (by cases h), rfl, fun _ h => (by cases h)⟩

end CacheCall

/-! ## One step -/

/-- The call has locked the map, free until then, and goes through the phase. -/
structure Takes (config : CacheConfig) (s : SharedCache K V) (phase : CachePhase K V) (s' : SharedCache K V)
    (c' : CacheCall K V) : Prop where
  applied : phase.apply config s.cache = some (c'.reply, c'.settle config s'.cache)
  locked : s'.entriesLocked = c'.holds
  regular : c'.Regular config

theorem get_takes {orInsert : Bool} (hfree : s.entriesLocked = false) :
    Takes config s (.get key orInsert now) (s.get config key orInsert now).1 (s.get config key orInsert now).2 := by
  have hmissed : ∀ s' : SharedCache K V, s'.entriesLocked = false → s.cache.get config key now = (none, s'.cache) →
      Takes config s (.get key orInsert now) s' (.missed key orInsert) := by
    intro s' hs' hget
    refine ⟨?_, ?_, ?_⟩
    · simp only [CachePhase.apply, hget]
      cases orInsert <;> rfl
    · cases orInsert <;> exact hs'
    · cases orInsert <;> exact ⟨fun h => (by cases h), rfl, fun _ h => (by cases h)⟩
  unfold SharedCache.get
  cases hlookup : s.cache.entries.lookup key with
  | none => exact hmissed s hfree (by simp only [Cache.get, hlookup])
  | some entry =>
      dsimp only
      split
      · rename_i hexpired
        exact hmissed _ hfree (by simp only [Cache.get, hlookup, if_pos hexpired])
      · rename_i hcurrent
        cases hl : config.enableLru with
        | true =>
            refine ⟨?_, rfl, ⟨fun _ => hl, rfl, fun _ h => (by cases h)⟩⟩
            simp only [CachePhase.apply, Cache.get, hlookup, if_neg hcurrent, hl, if_true]
            rfl
        | false =>
            refine ⟨?_, hfree, .returned _⟩
            simp only [CachePhase.apply, Cache.get, hlookup, if_neg hcurrent, hl, Bool.false_eq_true, if_false]
            rfl

/-- What is to be put in the map is put there, and in the queue with LRU. -/
theorem place_takes (config : CacheConfig) (cache : Cache K V) (key : K) (value : V) (now : Nat)
    (reply : CacheReply V) :
    let r := SharedCache.place config cache key value now reply
    r.2.reply = some reply ∧ r.2.settle config r.1.cache = cache.put config key value now ∧
      r.1.entriesLocked = r.2.holds ∧ r.2.Regular config := by
  unfold SharedCache.place put
  cases hl : config.enableLru with
  | true => exact ⟨rfl, rfl, rfl, fun _ => hl, rfl, fun _ h => (by cases h)⟩
  | false => exact ⟨rfl, rfl, rfl, .returned reply⟩

theorem insert_eq : s.cache.insert config key value first now =
    (if s.cache.entries.keys.length ≥ config.capacity ∧ key ∉ s.cache.entries then s.cache.evictOne config first
      else some s.cache).map fun cache => cache.put config key value now := rfl

theorem insert_takes {reply : CacheReply V} (h : s.insert config key value reply first now = some (s', c')) :
    Takes config s (.insert key value reply first now) s' c' := by
  have hplace : ∀ cache : Cache K V, s.cache.insert config key value first now = some (cache.put config key value now) →
      SharedCache.place config cache key value now reply = (s', c') →
        Takes config s (.insert key value reply first now) s' c' := by
    intro cache hinsert hplace
    obtain ⟨hreply, hsettled, hlocked, hregular⟩ := place_takes config cache key value now reply
    rw [hplace] at hreply hsettled hlocked hregular
    refine ⟨?_, hlocked, hregular⟩
    rw [CachePhase.apply, hinsert, hreply, hsettled, Option.map_some]
  unfold SharedCache.insert at h
  split at h
  · rename_i hfull
    split at h
    · rename_i hl
      cases h
      -- an eviction from the queue does not ask for the first key of the map
      have hsame : s.cache.evictOne config key = s.cache.evictOne config first := by
        simp only [evictOne, hl, ↓reduceIte]
      obtain ⟨cache, hevict⟩ : ∃ cache, s.cache.evictOne config first = some cache := by
        unfold evictOne
        rw [if_pos hl]
        split <;> exact ⟨_, rfl⟩
      refine ⟨?_, rfl, fun _ => hl, rfl, fun _ h => (by cases h)⟩
      rw [CachePhase.apply, insert_eq, if_pos hfull, CacheCall.settle, hsame, hevict]
      rfl
    · obtain ⟨cache, hevict, h⟩ := Option.map_eq_some_iff.mp h
      exact hplace cache (by rw [insert_eq, if_pos hfull, hevict, Option.map_some]) h
  · rename_i hroom
    exact hplace s.cache (by rw [insert_eq, if_neg hroom, Option.map_some]) (Option.some.inj h)

theorem remove_takes (hfree : s.entriesLocked = false) :
    Takes config s (.remove key) (s.remove config key).1 (s.remove config key).2 := by
  unfold SharedCache.remove
  cases hlookup : s.cache.entries.lookup key with
  | none =>
      refine ⟨?_, hfree, .returned _⟩
      simp only [CachePhase.apply, Cache.remove, hlookup]
      rfl
  | some entry =>
      cases hl : config.enableLru with
      | true =>
          refine ⟨?_, rfl, fun _ => hl, rfl, fun _ h => (by cases h)⟩
          simp only [CachePhase.apply, Cache.remove, hlookup, removeEntry, hl, if_true]
          rfl
      | false =>
          refine ⟨?_, hfree, .returned _⟩
          simp only [CachePhase.apply, Cache.remove, hlookup, removeEntry, hl, Bool.false_eq_true, if_false]
          rfl

theorem clear_takes (hfree : s.entriesLocked = false) (hl : config.enableLru = false) :
    Takes config s .clear (s.clear config).1 (s.clear config).2 := by
  unfold SharedCache.clear
  rw [if_neg (by rw [hl]; exact Bool.false_ne_true)]
  refine ⟨?_, hfree, .returned _⟩
  simp only [CachePhase.apply, Cache.clear, hl, Bool.false_eq_true, if_false]
  rfl

theorem pruneNext_takes (hl : config.enableLru = true) (cache : Cache K V) (keys : List K) (count : Nat) :
    let r := SharedCache.pruneNext cache keys count
    r.2.reply = some (.count count) ∧ r.2.settle config r.1.cache = keys.foldl (removeEntry config) cache ∧
      r.1.entriesLocked = r.2.holds ∧ r.2.Regular config := by
  obtain ⟨hlocked, hclears, _, hsettled⟩ := SharedCache.pruneNext_settles hl cache keys count
  refine ⟨?_, hsettled, hlocked, fun _ => hl, hclears, ?_⟩
  · cases keys <;> rfl
  · cases keys <;> exact fun _ h => (by cases h)

theorem prune_takes {ttl : Nat} {clock : K → Nat} (ht : config.ttl = some ttl) :
    Takes config s (.pruneExpired clock) (s.prune config (s.cache.expiredKeys ttl clock)).1
      (s.prune config (s.cache.expiredKeys ttl clock)).2 := by
  unfold SharedCache.prune
  have happly : (CachePhase.pruneExpired clock : CachePhase K V).apply config s.cache =
      some (some (.count (s.cache.expiredKeys ttl clock).length),
        (s.cache.expiredKeys ttl clock).foldl (removeEntry config) s.cache) := by
    simp only [CachePhase.apply, Cache.pruneExpired, ht]
    rfl
  cases hl : config.enableLru with
  | true =>
      obtain ⟨hreply, hsettled, hlocked, hregular⟩ :=
        pruneNext_takes hl s.cache (s.cache.expiredKeys ttl clock) (s.cache.expiredKeys ttl clock).length
      refine ⟨?_, hlocked, hregular⟩
      rw [happly]
      exact congrArg some (Prod.ext hreply.symm hsettled.symm)
  | false => exact ⟨happly, rfl, .returned _⟩

/-- A step of a call goes through a phase or leaves the cache as it will be and the reply as it is. A `prune_expired`
without a TTL does not lock the map. -/
inductive PhaseStep (config : CacheConfig) (s : SharedCache K V) (c : CacheCall K V) (e : CacheEvent K V) :
    SharedCache K V → CacheCall K V → Prop
  | takes {phase : CachePhase K V} {s' : SharedCache K V} {c' : CacheCall K V} (hphase : c.phase e = some phase)
      (hholds : c.holds = false) (hfree : s.entriesLocked = false) (h : Takes config s phase s' c') :
      PhaseStep config s c e s' c'
  | noTtl {clock : K → Nat} (hphase : c.phase e = some (.pruneExpired clock)) (hholds : c.holds = false)
      (ht : config.ttl = none) : PhaseStep config s c e s (.returned (.count 0))
  | computes {c' : CacheCall K V} (hphase : c.phase e = none) (hholds : c.holds = false) (hholds' : c'.holds = false)
      (hreply : c'.reply = c.reply) (hregular : c'.Regular config) : PhaseStep config s c e s c'
  | goes {s' : SharedCache K V} {c' : CacheCall K V} (hphase : c.phase e = none) (hholds : c.holds = true)
      (hlocked : s'.entriesLocked = c'.holds) (hreply : c'.reply = c.reply)
      (hsettled : c'.settle config s'.cache = c.settle config s.cache) (hregular : c'.Regular config) :
      PhaseStep config s c e s' c'

theorem callStep_phase (hc : c.Regular config) (h : s.callStep config c e = some (s', c')) :
    PhaseStep config s c e s' c' := by
  unfold SharedCache.callStep at h
  split at h
  · split at h
    · cases h
    · rename_i key orInsert now hfree
      have htakes : Takes config s (.get key orInsert now) _ _ := get_takes (by simpa using hfree)
      rw [Option.some.inj h] at htakes
      exact .takes rfl rfl (by simpa using hfree) htakes
  · cases h
    exact .goes rfl rfl rfl rfl rfl (.returned _)
  · cases h
    exact .computes rfl rfl rfl rfl ⟨fun h => (by cases h), rfl, fun _ h => (by cases h)⟩
  · split at h
    · cases h
    · rename_i hfree
      exact .takes rfl rfl (by simpa using hfree) (insert_takes h)
  · rename_i key value now reply
    obtain ⟨cache, hevict, hplace⟩ := Option.map_eq_some_iff.mp h
    obtain ⟨hreply, hsettled, hlocked, hregular⟩ := place_takes config cache key value now reply
    rw [hplace] at hreply hsettled hlocked hregular
    refine .goes rfl rfl hlocked hreply ?_ hregular
    rw [hsettled, CacheCall.settle, hevict, Option.getD_some]
  · cases h
    exact .goes rfl rfl rfl rfl rfl (.returned _)
  · split at h
    · cases h
    · rename_i key hfree
      have htakes : Takes config s (.remove key) _ _ := remove_takes (by simpa using hfree)
      rw [Option.some.inj h] at htakes
      exact .takes rfl rfl (by simpa using hfree) htakes
  · cases h
    exact .goes rfl rfl rfl rfl rfl (.returned _)
  · split at h
    · cases h
    · rename_i hfree
      have hl : config.enableLru = false := Bool.eq_false_of_not_eq_true fun hl => hc.clear hl rfl
      have htakes : Takes config s .clear _ _ := clear_takes (by simpa using hfree) hl
      rw [Option.some.inj h] at htakes
      exact .takes rfl rfl (by simpa using hfree) htakes
  · have hclears : true = false := hc.clears
    cases hclears
  · rename_i clock
    split at h
    · rename_i ttl ht
      split at h
      · cases h
      · rename_i hfree
        have htakes : Takes config s (.pruneExpired clock) _ _ := prune_takes ht
        rw [Option.some.inj h] at htakes
        exact .takes rfl rfl (by simpa using hfree) htakes
    · rename_i ht
      cases h
      exact .noTtl rfl rfl ht
  · rename_i key keys count
    obtain ⟨hreply, hsettled, hlocked, hregular⟩ :=
      pruneNext_takes (hc.holds rfl) { s.cache with lruOrder := s.cache.lruOrder.erase key } keys count
    rw [Option.some.inj h] at hreply hsettled hlocked hregular
    exact .goes rfl rfl hlocked hreply hsettled hregular
  · cases h

/-! ## The calls together -/

/-- Once the call that holds the map is done the cache is that of `a`, and the calls have replied what those of `a`
have. -/
structure Refines (config : CacheConfig) (p : CachePool K V) (a : AtomicCache K V) : Prop where
  locked : p.shared.entriesLocked.toNat = p.total fun c => c.holds.toNat
  settled : OnceDone config (· = a.cache) p
  replies : ∀ (i : Nat) c, p.tasks[i]? = some c → c.reply = a.replies i
  unused : ∀ i, p.tasks.length ≤ i → a.replies i = none
  regular : ∀ (i : Nat) c, p.tasks[i]? = some c → c.Regular config

variable {p p' : CachePool K V} {a : AtomicCache K V} {i : Nat}

theorem Refines.fresh : Refines config (SharedCache.fresh : CachePool K V) .new where
  locked := rfl
  settled := ⟨fun _ => rfl, by intro c hc; cases hc⟩
  replies i c h := by cases h
  unused i _ := rfl
  regular i c h := by cases h

theorem Refines.spawn {k : CacheRequest K V} (h : Refines config p a) (hk : config.enableLru = true → k ≠ .clear) :
    Refines config { p with tasks := p.tasks ++ [CacheCall.start k] } a := by
  have hstart : (CacheCall.start k).holds = false ∧ (CacheCall.start k).reply = none ∧
      (CacheCall.start k).Regular config := by
    cases k with
    | clear => exact ⟨rfl, rfl, fun h => (by cases h), rfl, fun hl => absurd rfl (hk hl)⟩
    | _ => exact ⟨rfl, rfl, fun h => (by cases h), rfl, fun _ h => (by cases h)⟩
  obtain ⟨hholds, hreply, hregular⟩ := hstart
  refine ⟨?_, ⟨h.settled.free, ?_⟩, ?_, ?_, ?_⟩
  · rw [Pool.total, List.map_append, List.sum_append, List.map_singleton, List.sum_singleton, hholds]
    exact h.locked
  · intro c hc hcholds
    rcases List.mem_append.mp hc with hc | hc
    · exact h.settled.held c hc hcholds
    · rw [List.mem_singleton.mp hc, hholds] at hcholds
      cases hcholds
  · exact forall_getElem?_snoc h.replies (hreply.trans (h.unused _ (le_refl _)).symm)
  · intro i hi
    rw [List.length_append, List.length_singleton] at hi
    exact h.unused i (by omega)
  · exact forall_getElem?_snoc (Q := fun _ c => CacheCall.Regular config c) h.regular hregular

theorem Refines.locked_set (h : Refines config p a) (hi : p.tasks[i]? = some c)
    (hlock : s'.entriesLocked.toNat + c.holds.toNat = p.shared.entriesLocked.toNat + c'.holds.toNat) :
    s'.entriesLocked.toNat = Pool.total (fun c => c.holds.toNat) ⟨s', p.tasks.set i c'⟩ := by
  have hset := sum_map_set (fun c : CacheCall K V => c.holds.toNat) c' hi
  have hlocked := h.locked
  rw [Pool.total] at hlocked ⊢
  dsimp only at hset ⊢
  omega

/-- A step after which the cache will be `after` and the call will have replied as it says. -/
theorem Refines.act {after : Cache K V} (h : Refines config p a) (hi : p.tasks[i]? = some c)
    (hlock : s'.entriesLocked.toNat + c.holds.toNat = p.shared.entriesLocked.toNat + c'.holds.toNat)
    (hsettled : OnceDone config (· = after) ⟨s', p.tasks.set i c'⟩) (hregular : c'.Regular config) :
    Refines config ⟨s', p.tasks.set i c'⟩ ⟨after, Function.update a.replies i c'.reply⟩ where
  locked := h.locked_set hi hlock
  settled := hsettled
  replies := by
    intro j d hj
    rcases getElem?_set_cases hj with ⟨rfl, rfl⟩ | ⟨hij, hj⟩
    · exact (Function.update_self i d.reply a.replies).symm
    · exact (h.replies j d hj).trans (Function.update_of_ne (Ne.symm hij) c'.reply a.replies).symm
  unused := by
    intro j hj
    have hlt := (List.getElem?_eq_some_iff.mp hi).1
    rw [List.length_set] at hj
    have hne : j ≠ i := by omega
    exact (Function.update_of_ne hne c'.reply a.replies).trans (h.unused j hj)
  regular := forall_getElem?_set (Q := fun _ c => CacheCall.Regular config c) h.regular hregular

theorem Refines.replies_kept (h : Refines config p a) (hi : p.tasks[i]? = some c) (hreply : c'.reply = c.reply) :
    a = ⟨a.cache, Function.update a.replies i c'.reply⟩ := by
  rw [hreply, h.replies i c hi, Function.update_eq_self]

theorem OnceDone.set_idle {Q : Cache K V → Prop} (h : OnceDone config Q p) (hc' : c'.holds = false) :
    OnceDone config Q ⟨p.shared, p.tasks.set i c'⟩ where
  free := h.free
  held d hd hholds := by
    rcases List.mem_or_eq_of_mem_set hd with hd | rfl
    · exact h.held d hd hholds
    · rw [hc'] at hholds
      cases hholds

/-- Every step of the calls is a phase of the atomic cache, or is not seen there. -/
theorem Refines.step {ev : Event (CacheRequest K V) (CacheEvent K V)} (h : Refines config p a)
    (hclear : config.enableLru = true → ev ≠ .spawn .clear) (hs : (cacheCalls config).step p ev = some p') :
    (phaseOf p ev = none → Refines config p' a) ∧
      ∀ b, phaseOf p ev = some b → ∃ a', AtomicCache.step config a b = some a' ∧ Refines config p' a' := by
  cases ev with
  | spawn k =>
      rw [Program.step_spawn] at hs
      cases hs
      exact ⟨fun _ => h.spawn fun hl hk => hclear hl (by rw [hk]), fun b hb => (by cases hb)⟩
  | act i e =>
      obtain ⟨c, s', c', hi, hact, rfl⟩ := Program.step_act.mp hs
      have hphaseOf : phaseOf p (.act i e) = (c.phase e).map fun phase => (i, phase) := by
        simp only [phaseOf, hi, Option.bind_some]
      have hi' : (p.tasks.set i c')[i]? = some c' := List.getElem?_set_self (List.getElem?_eq_some_iff.mp hi).1
      rw [hphaseOf]
      cases callStep_phase (h.regular i c hi) hact with
      | @takes phase _ _ hphase hholds hfree htakes =>
          rw [hphase]
          refine ⟨fun hnone => (by cases hnone), fun b hb => ?_⟩
          cases hb
          have hlock : s'.entriesLocked.toNat + c.holds.toNat = p.shared.entriesLocked.toNat + c'.holds.toNat := by
            rw [htakes.locked, hholds, hfree, Nat.add_comm]
          have hsettled : OnceDone config (· = c'.settle config s'.cache) ⟨s', p.tasks.set i c'⟩ :=
            (onceDone_iff (h.locked_set hi hlock) hi' htakes.locked).mpr rfl
          refine ⟨_, ?_, h.act hi hlock hsettled htakes.regular⟩
          rw [AtomicCache.step, ← h.settled.free hfree, htakes.applied, Option.map_some]
      | @noTtl clock hphase hholds ht =>
          rw [hphase]
          refine ⟨fun hnone => (by cases hnone), fun b hb => ?_⟩
          cases hb
          refine ⟨_, ?_, h.act hi (by rw [hholds]; rfl) (h.settled.set_idle rfl) (.returned _)⟩
          simp only [AtomicCache.step, CachePhase.apply, Cache.pruneExpired, ht]
          rfl
      | computes hphase hholds hholds' hreply hregular =>
          rw [hphase]
          refine ⟨fun _ => ?_, fun b hb => (by cases hb)⟩
          rw [h.replies_kept hi hreply]
          exact h.act hi (by rw [hholds, hholds']) (h.settled.set_idle hholds') hregular
      | goes hphase hholds hlocked hreply hsettled hregular =>
          rw [hphase]
          refine ⟨fun _ => ?_, fun b hb => (by cases hb)⟩
          have hheld : p.shared.entriesLocked = true := locked_of_holds h.locked (List.mem_of_getElem? hi) hholds
          have hlock : s'.entriesLocked.toNat + c.holds.toNat = p.shared.entriesLocked.toNat + c'.holds.toNat := by
            rw [hlocked, hholds, hheld, Nat.add_comm]
          rw [h.replies_kept hi hreply]
          refine h.act hi hlock ?_ hregular
          refine (onceDone_iff (h.locked_set hi hlock) hi' hlocked).mpr ?_
          rw [hsettled]
          exact h.settled.held c (List.mem_of_getElem? hi) hholds

end NetworkSystem
