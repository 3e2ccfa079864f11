import NetworkSystem.Cache.Lemmas.Capacity

/-!
# When the queue holds the keys of the map

With LRU, `insert` adds a place to the queue whether or not the key has one, and a `get` that takes out an
expired entry leaves its place. All else keeps the queue a mirror of the map, and the map within its capacity.
-/

namespace NetworkSystem

namespace Cache

variable {K V : Type} [DecidableEq K] {config : CacheConfig} {s s' s₁ : Cache K V} {key first : K} {value : V}
  {now : Nat}

/-- The queue contains every key of the map once and no other key. -/
structure Mirrored (s : Cache K V) : Prop where
  once : s.lruOrder.Nodup
  same : ∀ key, key ∈ s.lruOrder ↔ key ∈ s.entries

omit [DecidableEq K] in
theorem mirrored_iff_perm : s.Mirrored ↔ s.lruOrder.Perm s.entries.keys := by
  constructor
  · intro h
    rw [List.perm_ext_iff_of_nodup h.once s.entries.keys_nodup]
    exact h.same
  · intro h
    exact ⟨h.nodup_iff.mpr s.entries.keys_nodup, fun key => h.mem_iff⟩

instance : Decidable s.Mirrored := decidable_of_iff _ mirrored_iff_perm.symm

omit [DecidableEq K] in
theorem Mirrored.length_eq (h : s.Mirrored) : s.lruOrder.length = s.entries.keys.length :=
  (mirrored_iff_perm.mp h).length_eq

/-- The queue mirrors the map, and `insert` has kept the map within the capacity; it does not evict the only
entry. -/
structure Tight (config : CacheConfig) (s : Cache K V) : Prop where
  mirrored : s.Mirrored
  within : s.entries.keys.length ≤ max config.capacity 1

omit [DecidableEq K] in
theorem Tight.new : (new : Cache K V).Tight config where
  mirrored := mirrored_iff_perm.mpr .nil
  within := Nat.zero_le _

/-! ## What keeps the mirror -/

theorem Mirrored.moveToBack (h : s.Mirrored) : (s.moveToBack key).Mirrored := by
  unfold Cache.moveToBack
  split
  · rename_i hmem
    have hback : (s.lruOrder.erase key ++ [key]).Perm s.lruOrder :=
      (List.perm_append_singleton _ _).trans (List.perm_cons_erase hmem).symm
    exact mirrored_iff_perm.mpr (hback.trans (mirrored_iff_perm.mp h))
  · exact h

theorem Mirrored.touch (h : s.Mirrored) (hkey : key ∈ s.entries) (entry : CacheEntry V) :
    Mirrored { s with entries := s.entries.insert key entry } := by
  refine mirrored_iff_perm.mpr ((mirrored_iff_perm.mp h).trans ?_)
  rw [AList.keys_insert]
  exact List.perm_cons_erase (AList.mem_keys.mp hkey)

theorem Mirrored.erase (h : s.Mirrored) (key : K) :
    Mirrored ⟨s.entries.erase key, s.lruOrder.erase key⟩ := by
  refine mirrored_iff_perm.mpr ?_
  rw [AList.keys_erase]
  exact (mirrored_iff_perm.mp h).erase key

theorem Mirrored.push (h : s.Mirrored) (hkey : key ∉ s.entries) (entry : CacheEntry V) :
    Mirrored ⟨s.entries.insert key entry, s.lruOrder ++ [key]⟩ := by
  refine mirrored_iff_perm.mpr ?_
  rw [AList.keys_insert, List.erase_of_not_mem hkey]
  exact (List.perm_append_singleton _ _).trans ((mirrored_iff_perm.mp h).cons key)

/-! ## The functions -/

/-- The key is found, and its entry is expired at `now`. -/
def findsExpired (config : CacheConfig) (s : Cache K V) (key : K) (now : Nat) : Bool :=
  (s.entries.lookup key).any fun entry => config.ttl.any fun ttl => entry.isExpired ttl now

theorem Tight.get (hl : config.enableLru = true) (h : s.Tight config) :
    (Mirrored (s.get config key now).2 ↔ s.findsExpired config key now = false) ∧
      (s.findsExpired config key now = false → Tight config (s.get config key now).2) := by
  have hsize : (s.get config key now).2.entries.keys.length ≤ max config.capacity 1 :=
    Nat.le_trans get_size_le h.within
  have hg : GetStep config s key now (s.get config key now) := get_step
  generalize s.get config key now = r at hg hsize
  unfold findsExpired
  cases hg with
  | miss hnone =>
      rw [hnone]
      exact ⟨iff_of_true h.mirrored rfl, fun _ => h⟩
  | expire hsome ht he =>
      rw [hsome, ht, Option.any_some, Option.any_some, he]
      refine ⟨iff_of_false ?_ nofun, nofun⟩
      intro hm
      have hqueued := (h.mirrored.same key).mpr (mem_of_lookup hsome)
      exact (AList.mem_erase.mp ((hm.same key).mp hqueued)).1 rfl
  | @hit entry hsome hfresh =>
      have hkey := mem_of_lookup hsome
      have hexpired : (config.ttl.any fun ttl => entry.isExpired ttl now) = false := by
        cases ht : config.ttl with
        | none => rfl
        | some ttl => exact hfresh ttl ht
      have hhit : s.hit config key entry =
          ({ s with entries := s.entries.insert key entry.touch } : Cache K V).moveToBack key := by
        simp [Cache.hit, Cache.moveToBack, hl, (h.mirrored.same key).mpr hkey]
      have hm : (s.hit config key entry).Mirrored := hhit ▸ (h.mirrored.touch hkey _).moveToBack
      rw [hsome, Option.any_some, hexpired]
      exact ⟨iff_of_true hm rfl, fun _ => ⟨hm, hsize⟩⟩

theorem Tight.insert (hl : config.enableLru = true) (h : s.Tight config)
    (hi : InsertStep config s key value first now s') :
    (s'.Mirrored ↔ key ∉ s.entries) ∧ (key ∉ s.entries → s'.Tight config) := by
  have hnew : ∀ {c : Cache K V}, c.Mirrored → key ∉ c.entries →
      c.entries.keys.length + 1 ≤ max config.capacity 1 → (c.put config key value now).Tight config := by
    intro c hm hkey hsize
    refine ⟨?_, ?_⟩
    · unfold put
      rw [if_pos hl]
      exact hm.push hkey _
    · unfold put
      rw [keys_length_insert_of_notMem hkey]
      exact hsize
  cases hi with
  | room hroom =>
      by_cases hkey : key ∈ s.entries
      · refine ⟨iff_of_false ?_ (not_not_intro hkey), fun hnot => absurd hkey hnot⟩
        -- the key has its old place and the new one
        intro hm
        have hqueued := (h.mirrored.same key).mpr hkey
        have honce := hm.once
        unfold put at honce
        rw [if_pos hl, List.nodup_append] at honce
        exact honce.2.2 key hqueued key (List.mem_singleton_self key) rfl
      · have hsize : s.entries.keys.length < config.capacity :=
          Nat.lt_of_not_le fun hfull => hroom ⟨hfull, hkey⟩
        have htight := hnew h.mirrored hkey (by omega)
        exact ⟨iff_of_true htight.mirrored hkey, fun _ => htight⟩
  | full hfull hkey he =>
      have htight : ∀ {c : Cache K V}, EvictStep config s first c → (c.put config key value now).Tight config := by
        intro c he
        cases he with
        | @front front rest _ hqueue =>
            have hfront : front ∈ s.entries := (h.mirrored.same front).mp (by rw [hqueue]; exact List.mem_cons_self)
            have hsize : (s.entries.erase front).keys.length + 1 ≤ max config.capacity 1 :=
              (keys_length_erase_of_mem hfront).trans_le h.within
            have hm := h.mirrored.erase front
            rw [hqueue, List.erase_cons_head] at hm
            exact hnew hm (fun hmem => hkey (AList.mem_erase.mp hmem).2) hsize
        | noQueue _ hqueue =>
            have hlen := h.mirrored.length_eq
            rw [hqueue, List.length_nil] at hlen
            exact hnew h.mirrored hkey (by omega)
        | empty hl' | first hl' =>
            rw [hl] at hl'
            cases hl'
      exact ⟨iff_of_true (htight he).mirrored hkey, fun _ => htight he⟩

theorem Tight.removeEntry (hl : config.enableLru = true) (h : s.Tight config) (key : K) :
    (s.removeEntry config key).Tight config := by
  unfold Cache.removeEntry
  rw [if_pos hl]
  exact ⟨h.mirrored.erase key, Nat.le_trans (keys_length_erase_le _ _) h.within⟩

theorem Tight.remove (hl : config.enableLru = true) (h : s.Tight config) (key : K) :
    (s.remove config key).2.Tight config := by
  unfold Cache.remove
  split
  · exact h.removeEntry hl key
  · exact h

theorem Tight.pruneExpired (hl : config.enableLru = true) (h : s.Tight config) (now : K → Nat) :
    (s.pruneExpired config now).2.Tight config := by
  have hfold : ∀ (keys : List K) (c : Cache K V), c.Tight config →
      (keys.foldl (Cache.removeEntry config) c).Tight config := by
    intro keys
    induction keys with
    | nil => exact fun _ hc => hc
    | cons key keys ih => exact fun c hc => ih _ (hc.removeEntry hl key)
  unfold Cache.pruneExpired
  split
  · exact hfold _ _ h
  · exact h

end Cache

end NetworkSystem
