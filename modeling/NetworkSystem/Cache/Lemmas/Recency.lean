import NetworkSystem.Cache.Lemmas.Capacity
import NetworkSystem.Lib.LruMap

/-!
# The queue as an order of use

Without a TTL and as long as every eviction takes the right key, the cache behaves as a map that forgets what
was not used for longest: the two hold the same values, and the last places of the keys in `lru_order` stand
in the order of their last use (`Mirrors`).
-/

namespace NetworkSystem

open LruMap

variable {K V : Type} [DecidableEq K]

namespace Cache

/-- The keys of the map in the order of their last places in `lru_order`. -/
def recency (s : Cache K V) : List K := recent (fun key => decide (key ∈ s.entries)) s.lruOrder

/-- When an insertion of the key has to evict, the front of `lru_order` is the key of the map whose last
place in `lru_order` comes first. -/
def VictimIsOldest (config : CacheConfig) (s : Cache K V) (key : K) : Prop :=
  config.capacity ≤ s.entries.keys.length → key ∉ s.entries → s.lruOrder.head? = s.recency.head?

def EvictsOldest (config : CacheConfig) (s : Cache K V) : CacheOp K V → Prop
  | .insert key _ _ _ | .getOrInsertWith key _ _ _ _ => s.VictimIsOldest config key
  | .get _ _ | .remove _ | .clear | .pruneExpired _ => True

instance {config : CacheConfig} {s : Cache K V} {op : CacheOp K V} : Decidable (s.EvictsOldest config op) :=
  match op with
  | .insert key _ _ _ => inferInstanceAs (Decidable (_ → key ∉ s.entries → _))
  | .getOrInsertWith key _ _ _ _ => inferInstanceAs (Decidable (_ → key ∉ s.entries → _))
  | .get _ _ | .remove _ | .clear | .pruneExpired _ => isTrue trivial

end Cache

/-- The call on the reference map; expiry does not concern it. -/
def CacheOp.reference (config : CacheConfig) (m : LruMap K V) : CacheOp K V → CacheReply V × LruMap K V
  | .get key _ => (LruMap.get m key).map .found id
  | .insert key value _ _ => (.none, LruMap.put config.capacity m key value)
  | .remove key => (LruMap.remove m key).map .found id
  | .clear => (.none, ∅)
  | .pruneExpired _ => (.count 0, m)
  | .getOrInsertWith key _ value _ _ =>
      match LruMap.get m key with
      | (some value, m) => (.value value, m)
      | (none, m) => (.value value, LruMap.put config.capacity m key value)

/-- The cache and the reference map take the same calls. -/
structure SideBySide (K V : Type) where
  cache : Cache K V
  reference : LruMap K V

namespace SideBySide

def step (config : CacheConfig) (s : SideBySide K V) (op : CacheOp K V) : Option (SideBySide K V) :=
  (s.cache.apply config op).map fun r => ⟨r.2, (op.reference config s.reference).2⟩

def fresh : SideBySide K V := ⟨Cache.new, ∅⟩

def SameContents (s : SideBySide K V) : Prop :=
  ∀ key, s.reference.lookup key = (s.cache.entries.lookup key).map CacheEntry.value

def RepliesAgree (config : CacheConfig) (s : SideBySide K V) (op : CacheOp K V) : Prop :=
  ∀ r, s.cache.apply config op = some r → r.1 = (op.reference config s.reference).1

/-! ## Mirroring -/

structure Mirrors (s : SideBySide K V) : Prop where
  same : s.SameContents
  order : LruMap.order s.reference = s.cache.recency

variable {config : CacheConfig} {s : SideBySide K V} {c' : Cache K V} {key : K} {value : V}

theorem SameContents.mem (h : s.SameContents) : key ∈ s.reference ↔ key ∈ s.cache.entries := by
  rw [← AList.lookup_isSome, ← AList.lookup_isSome, h key, Option.isSome_map]

theorem Mirrors.queued (h : s.Mirrors) (hk : key ∈ s.cache.entries) : key ∈ s.cache.lruOrder := by
  have hm := LruMap.mem_order.mpr (h.same.mem.mpr hk)
  rw [h.order] at hm
  exact (mem_recent.mp hm).1

theorem SameContents.size (h : s.SameContents) :
    s.reference.keys.length = s.cache.entries.keys.length := by
  refine List.Perm.length_eq ?_
  rw [List.perm_ext_iff_of_nodup s.reference.keys_nodup s.cache.entries.keys_nodup]
  intro k
  exact h.mem

theorem Mirrors.erase (h : s.Mirrors) {lruOrder : List K}
    (hq : ∀ p : K → Bool, p key = false → recent p lruOrder = recent p s.cache.lruOrder) :
    Mirrors ⟨⟨s.cache.entries.erase key, lruOrder⟩, s.reference.erase key⟩ := by
  constructor
  · intro k
    by_cases hk : k = key
    · subst hk
      rw [AList.lookup_erase, AList.lookup_erase]
      rfl
    · rw [AList.lookup_erase_ne hk, AList.lookup_erase_ne hk]
      exact h.same k
  · rw [LruMap.order_erase, h.order, Cache.recency, Cache.recency, hq _ (by simp)]
    exact (recent_without fun x => by simp).symm

theorem Mirrors.put (h : s.Mirrors) {entry : CacheEntry V} {lruOrder : List K}
    (hq : ∀ p : K → Bool, p key = false → recent p lruOrder = recent p s.cache.lruOrder)
    (hv : entry.value = value) :
    Mirrors ⟨⟨s.cache.entries.insert key entry, lruOrder ++ [key]⟩, s.reference.insert key value⟩ := by
  constructor
  · intro k
    by_cases hk : k = key
    · subst hk
      rw [AList.lookup_insert, AList.lookup_insert, Option.map_some, hv]
    · rw [AList.lookup_insert_ne hk, AList.lookup_insert_ne hk]
      exact h.same k
  · have hwithout : ∀ queue : List K, (recent (fun k => decide (k ∈ s.cache.entries)) queue).filter (· ≠ key) =
        recent (fun k => decide (k ≠ key ∧ k ∈ s.cache.entries)) queue :=
      fun queue => (recent_without fun x => by simp).symm
    rw [LruMap.order_insert, h.order, Cache.recency, Cache.recency]
    dsimp only
    rw [recent_concat (p := fun k => decide (k ∈ s.cache.entries)) (fun x => by simp), hwithout, hwithout,
      hq _ (by simp)]

/-! ## Steps -/

theorem Mirrors.fresh : (fresh : SideBySide K V).Mirrors := ⟨fun _ => rfl, rfl⟩

theorem Mirrors.remove (h : s.Mirrors) (config : CacheConfig) (key : K) :
    (s.cache.remove config key).1 = (LruMap.remove s.reference key).1 ∧
      Mirrors ⟨(s.cache.remove config key).2, (LruMap.remove s.reference key).2⟩ := by
  have hsame := h.same key
  unfold Cache.remove LruMap.remove
  split
  · rename_i entry hsome
    rw [hsome, Option.map_some] at hsame
    refine ⟨hsame.symm, h.erase ?_⟩
    intro p hp
    split
    · exact recent_erase hp
    · rfl
  · rename_i hnone
    rw [hnone, Option.map_none] at hsame
    have herase : s.reference.erase key = s.reference :=
      AList.ext (List.kerase_of_notMem_keys (AList.lookup_eq_none.mp hsame))
    rw [herase]
    exact ⟨hsame.symm, h⟩

theorem Mirrors.get (hl : config.enableLru = true) (ht : config.ttl = none) (h : s.Mirrors) (key : K)
    (now : Nat) :
    (s.cache.get config key now).1 = (LruMap.get s.reference key).1 ∧
      Mirrors ⟨(s.cache.get config key now).2, (LruMap.get s.reference key).2⟩ := by
  have hg : Cache.GetStep config s.cache key now (s.cache.get config key now) := Cache.get_step
  generalize s.cache.get config key now = r at hg
  have hsame := h.same key
  unfold LruMap.get
  cases hg with
  | miss hnone =>
      rw [hnone] at hsame
      rw [hsame]
      exact ⟨rfl, h⟩
  | expire _ httl =>
      rw [ht] at httl
      cases httl
  | hit hsome =>
      rw [hsome, Option.map_some] at hsame
      rw [hsame]
      refine ⟨rfl, ?_⟩
      have hqueued := h.queued (Cache.mem_of_lookup hsome)
      rw [Cache.hit, if_pos ⟨hl, hqueued⟩]
      exact h.put (fun p hp => recent_erase hp) rfl

theorem Mirrors.head_of_full (hcap : 0 < config.capacity) (h : s.Mirrors)
    (hfull : config.capacity ≤ s.cache.entries.keys.length) :
    ∃ oldest, s.cache.recency.head? = some oldest ∧ oldest ∈ s.cache.entries ∧
      LruMap.evict s.reference = s.reference.erase oldest := by
  have hlen : 0 < (LruMap.order s.reference).length := by
    rw [LruMap.order, List.length_reverse, h.same.size]
    omega
  obtain ⟨oldest, rest, horder⟩ := List.exists_cons_of_length_pos hlen
  refine ⟨oldest, by rw [← h.order, horder]; rfl, ?_, by rw [LruMap.evict, horder]; rfl⟩
  rw [← h.same.mem, ← LruMap.mem_order, horder]
  exact List.mem_cons_self

/-- An insertion keeps the contents equal if and only if it evicts the right key, and then it keeps the order
as well. -/
theorem Mirrors.insert (hl : config.enableLru = true) (hcap : 0 < config.capacity) (h : s.Mirrors)
    {first : K} {now : Nat} (hi : Cache.InsertStep config s.cache key value first now c') :
    (SameContents ⟨c', LruMap.put config.capacity s.reference key value⟩ ↔
        s.cache.VictimIsOldest config key) ∧
      (s.cache.VictimIsOldest config key →
        Mirrors ⟨c', LruMap.put config.capacity s.reference key value⟩) := by
  have hdue : config.capacity ≤ s.reference.keys.length ∧ key ∉ s.reference ↔
      config.capacity ≤ s.cache.entries.keys.length ∧ key ∉ s.cache.entries := by
    rw [h.same.size, h.same.mem]
  cases hi with
  | room hroom =>
      rw [LruMap.put, if_neg (mt hdue.mp hroom), Cache.put, if_pos hl]
      have hput : Mirrors ⟨⟨s.cache.entries.insert key { value, createdAt := now },
          s.cache.lruOrder ++ [key]⟩, s.reference.insert key value⟩ := h.put (fun _ _ => rfl) rfl
      refine ⟨iff_of_true hput.same ?_, fun _ => hput⟩
      exact fun hfull hkey => absurd ⟨hfull, hkey⟩ hroom
  | full hfull hkey he =>
      rw [LruMap.put, if_pos (hdue.mpr ⟨hfull, hkey⟩), Cache.put, if_pos hl]
      obtain ⟨oldest, hhead, holdest, hevict⟩ := h.head_of_full hcap hfull
      rw [hevict]
      cases he with
      | @front front rest _ hqueue =>
          have hvictim : s.cache.VictimIsOldest config key ↔ front = oldest := by
            rw [Cache.VictimIsOldest, hqueue, hhead, List.head?_cons, Option.some.injEq]
            exact ⟨fun hv => hv hfull hkey, fun hv _ _ => hv⟩
          rw [hvictim]
          have hright : front = oldest →
              Mirrors ⟨⟨(s.cache.entries.erase front).insert key { value, createdAt := now }, rest ++ [key]⟩,
                (s.reference.erase oldest).insert key value⟩ := by
            rintro rfl
            have herase : Mirrors ⟨⟨s.cache.entries.erase front, rest⟩, s.reference.erase front⟩ := by
              refine h.erase fun p hp => ?_
              rw [hqueue, recent, recent, List.filter_cons_of_neg (by simp [hp])]
            exact herase.put (fun _ _ => rfl) rfl
          refine ⟨⟨?_, fun hv => (hright hv).same⟩, hright⟩
          intro hsame
          by_contra hne
          have hne' : oldest ≠ key := fun he => hkey (he ▸ holdest)
          have hlookup := hsame oldest
          rw [AList.lookup_insert_ne hne', AList.lookup_insert_ne hne', AList.lookup_erase,
            AList.lookup_erase_ne (Ne.symm hne)] at hlookup
          have hnone := Option.map_eq_none_iff.mp hlookup.symm
          exact AList.lookup_eq_none.mp hnone holdest
      | noQueue _ hqueue =>
          have hnil : s.cache.recency = [] := by
            rw [Cache.recency, hqueue]
            rfl
          rw [hnil] at hhead
          cases hhead
      | empty hl' | first hl' =>
          rw [hl] at hl'
          cases hl'

theorem Mirrors.apply (hl : config.enableLru = true) (ht : config.ttl = none) (hcap : 0 < config.capacity)
    (h : s.Mirrors) {op : CacheOp K V} {r : CacheReply V × Cache K V}
    (ha : s.cache.apply config op = some r) :
    r.1 = (op.reference config s.reference).1 ∧
      (SameContents ⟨r.2, (op.reference config s.reference).2⟩ ↔ s.cache.EvictsOldest config op) ∧
      (s.cache.EvictsOldest config op → Mirrors ⟨r.2, (op.reference config s.reference).2⟩) := by
  have hkeeps : ∀ {c : Cache K V} {m : LruMap K V}, Mirrors ⟨c, m⟩ →
      (SameContents ⟨c, m⟩ ↔ True) ∧ (True → Mirrors ⟨c, m⟩) :=
    fun hm => ⟨iff_of_true hm.same trivial, fun _ => hm⟩
  cases op with
  | get key now =>
      cases ha
      obtain ⟨hvalue, hm⟩ := h.get hl ht key now
      exact ⟨congrArg CacheReply.found hvalue, hkeeps hm⟩
  | remove key =>
      cases ha
      obtain ⟨hvalue, hm⟩ := h.remove config key
      exact ⟨congrArg CacheReply.found hvalue, hkeeps hm⟩
  | clear =>
      cases ha
      rw [Cache.clear, if_pos hl]
      exact ⟨rfl, hkeeps ⟨fun _ => rfl, rfl⟩⟩
  | pruneExpired clock =>
      cases ha
      rw [Cache.pruneExpired, ht]
      exact ⟨rfl, hkeeps h⟩
  | insert key value first now =>
      obtain ⟨c, hi, hc⟩ := Option.map_eq_some_iff.mp ha
      cases hc
      exact ⟨rfl, h.insert hl hcap (Cache.insert_step hi)⟩
  | getOrInsertWith key asked value first now =>
      obtain ⟨⟨v, c⟩, hg, hc⟩ := Option.map_eq_some_iff.mp ha
      cases hc
      have hget : Cache.GetStep config s.cache key asked (s.cache.get config key asked) := Cache.get_step
      obtain ⟨hvalue, hm⟩ := h.get hl ht key asked
      rcases href : LruMap.get s.reference key with ⟨found, m⟩
      rw [href] at hvalue hm
      rw [CacheOp.reference, href]
      rcases Cache.getOrInsertWith_cases hg with hhit | ⟨c₁, hmiss, rfl, hi⟩
      · rw [hhit] at hget hvalue hm
        dsimp only at hvalue hm ⊢
        subst hvalue
        cases hget with
        | hit hsome =>
            refine ⟨rfl, iff_of_true hm.same ?_, fun _ => hm⟩
            exact fun _ hkey => absurd (Cache.mem_of_lookup hsome) hkey
      · rw [hmiss] at hget hvalue hm
        dsimp only at hvalue hm ⊢
        subst hvalue
        cases hget with
        | expire _ httl =>
            rw [ht] at httl
            cases httl
        | miss => exact ⟨rfl, hm.insert hl hcap hi⟩

end SideBySide

end NetworkSystem
