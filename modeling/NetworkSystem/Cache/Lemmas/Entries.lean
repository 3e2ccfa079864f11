import NetworkSystem.Cache.Cache

/-!
# What the functions of the cache do to the map

`GetStep`, `EvictStep` and `InsertStep` list the branches of `get`, `evict_one` and `insert`. Entries leave
the map in many ways, but only `insert` brings one in (`Kept`).
-/

namespace NetworkSystem

namespace Cache

variable {K V : Type} [DecidableEq K] {config : CacheConfig} {s s' s₁ s₂ : Cache K V} {key first : K}
  {value : V} {now : Nat}

def hit (config : CacheConfig) (s : Cache K V) (key : K) (entry : CacheEntry V) : Cache K V :=
  { entries := s.entries.insert key entry.touch
    lruOrder :=
      if config.enableLru = true ∧ key ∈ s.lruOrder then s.lruOrder.erase key ++ [key] else s.lruOrder }

inductive GetStep (config : CacheConfig) (s : Cache K V) (key : K) (now : Nat) :
    Option V × Cache K V → Prop
  | miss (h : s.entries.lookup key = none) : GetStep config s key now (none, s)
  | expire {entry : CacheEntry V} {ttl : Nat} (h : s.entries.lookup key = some entry)
      (ht : config.ttl = some ttl) (he : entry.isExpired ttl now = true) :
      GetStep config s key now (none, { s with entries := s.entries.erase key })
  | hit {entry : CacheEntry V} (h : s.entries.lookup key = some entry)
      (ht : ∀ ttl, config.ttl = some ttl → entry.isExpired ttl now = false) :
      GetStep config s key now (some entry.value, s.hit config key entry)

theorem get_step : GetStep config s key now (s.get config key now) := by
  unfold get
  cases h : s.entries.lookup key with
  | none => exact .miss h
  | some entry =>
      by_cases he : (config.ttl.any fun ttl => entry.isExpired ttl now) = true
      · obtain ⟨ttl, ht, he'⟩ := (Option.any_eq_true _ _).mp he
        simp only [he, ↓reduceIte]
        exact .expire h ht he'
      · have hfresh : ∀ ttl, config.ttl = some ttl → entry.isExpired ttl now = false := by
          intro ttl ht
          rw [ht, Option.any_some] at he
          simpa using he
        have hstate : (if config.enableLru = true then
            ({ s with entries := s.entries.insert key entry.touch } : Cache K V).moveToBack key
            else { s with entries := s.entries.insert key entry.touch }) = s.hit config key entry := by
          unfold Cache.hit moveToBack
          cases config.enableLru <;> by_cases hk : key ∈ s.lruOrder <;> simp [hk]
        simp only [he, Bool.false_eq_true, ↓reduceIte, hstate]
        exact .hit h hfresh

inductive EvictStep (config : CacheConfig) (s : Cache K V) (first : K) : Cache K V → Prop
  | front {front : K} {rest : List K} (hl : config.enableLru = true) (h : s.lruOrder = front :: rest) :
      EvictStep config s first ⟨s.entries.erase front, rest⟩
  | noQueue (hl : config.enableLru = true) (h : s.lruOrder = []) : EvictStep config s first s
  | empty (hl : config.enableLru = false) (h : s.entries.keys = []) : EvictStep config s first s
  | first (hl : config.enableLru = false) (h : first ∈ s.entries) :
      EvictStep config s first { s with entries := s.entries.erase first }

theorem evictOne_step (h : s.evictOne config first = some s') : EvictStep config s first s' := by
  unfold evictOne at h
  split at h
  · split at h
    · cases h; exact .front ‹_› ‹_›
    · cases h; exact .noQueue ‹_› ‹_›
  · rename_i hl
    have hl' : config.enableLru = false := by simpa using hl
    split at h
    · cases h; exact .empty hl' ‹_›
    · split at h
      · cases h; exact .first hl' ‹_›
      · cases h

def put (config : CacheConfig) (s : Cache K V) (key : K) (value : V) (now : Nat) : Cache K V where
  entries := s.entries.insert key { value, createdAt := now }
  lruOrder := if config.enableLru then s.lruOrder ++ [key] else s.lruOrder

inductive InsertStep (config : CacheConfig) (s : Cache K V) (key : K) (value : V) (first : K)
    (now : Nat) : Cache K V → Prop
  | room (h : ¬ (config.capacity ≤ s.entries.keys.length ∧ key ∉ s.entries)) :
      InsertStep config s key value first now (s.put config key value now)
  | full {s₁ : Cache K V} (hfull : config.capacity ≤ s.entries.keys.length) (hkey : key ∉ s.entries)
      (he : EvictStep config s first s₁) :
      InsertStep config s key value first now (s₁.put config key value now)

theorem insert_step (h : s.insert config key value first now = some s') :
    InsertStep config s key value first now s' := by
  obtain ⟨s₁, hs₁, rfl⟩ := Option.map_eq_some_iff.mp h
  split at hs₁
  · rename_i hfull
    exact .full hfull.1 hfull.2 (evictOne_step hs₁)
  · rename_i hroom
    cases hs₁
    exact .room hroom

theorem getOrInsertWith_cases {asked : Nat} {v : V}
    (h : s.getOrInsertWith config key asked value first now = some (v, s')) :
    s.get config key asked = (some v, s') ∨
      ∃ s₁, s.get config key asked = (none, s₁) ∧ v = value ∧
        InsertStep config s₁ key value first now s' := by
  unfold getOrInsertWith at h
  split at h
  · rename_i hget
    cases h
    exact Or.inl hget
  · rename_i s₁ hget
    obtain ⟨s₂, hi, hs₂⟩ := Option.map_eq_some_iff.mp h
    cases hs₂
    exact Or.inr ⟨s₁, hget, rfl, insert_step hi⟩

/-! ## Entries that stay -/

/-- Every entry of `s'` is an entry of `s`, apart from its count of accesses. -/
def Kept (s s' : Cache K V) : Prop :=
  ∀ k e', s'.entries.lookup k = some e' →
    ∃ e, s.entries.lookup k = some e ∧ e'.value = e.value ∧ e'.createdAt = e.createdAt

theorem Kept.refl (s : Cache K V) : Kept s s := fun _ e h => ⟨e, h, rfl, rfl⟩

theorem Kept.trans (h₁ : Kept s s₁) (h₂ : Kept s₁ s₂) : Kept s s₂ := by
  intro k e₂ he₂
  obtain ⟨e₁, he₁, hv₁, hc₁⟩ := h₂ k e₂ he₂
  obtain ⟨e, he, hv, hc⟩ := h₁ k e₁ he₁
  exact ⟨e, he, hv₁.trans hv, hc₁.trans hc⟩

theorem lookup_erase_eq_some {m : AList fun _ : K => CacheEntry V} {k a : K} {e : CacheEntry V} :
    (m.erase a).lookup k = some e ↔ k ≠ a ∧ m.lookup k = some e := by
  by_cases hk : k = a
  · subst hk
    simp
  · simp [hk]

theorem Kept.erase {lruOrder : List K} (a : K) : Kept s ⟨s.entries.erase a, lruOrder⟩ :=
  fun _ e h => ⟨e, (lookup_erase_eq_some.mp h).2, rfl, rfl⟩

theorem Kept.get (config : CacheConfig) (s : Cache K V) (key : K) (now : Nat) :
    Kept s (s.get config key now).2 := by
  have hg : GetStep config s key now (s.get config key now) := get_step
  generalize s.get config key now = r at hg
  cases hg with
  | miss => exact Kept.refl s
  | expire => exact Kept.erase key
  | hit h =>
      rename_i entry _
      intro k e' he'
      by_cases hk : k = key
      · subst hk
        rw [Cache.hit, AList.lookup_insert, Option.some.injEq] at he'
        exact ⟨entry, h, by rw [← he']; exact ⟨rfl, rfl⟩⟩
      · rw [Cache.hit, AList.lookup_insert_ne hk] at he'
        exact ⟨e', he', rfl, rfl⟩

theorem EvictStep.kept (h : EvictStep config s first s') : Kept s s' := by
  cases h with
  | front | first => exact Kept.erase _
  | noQueue | empty => exact Kept.refl s

theorem Kept.foldl_removeEntry (keys : List K) : Kept s (keys.foldl (removeEntry config) s) := by
  induction keys generalizing s with
  | nil => exact Kept.refl s
  | cons key keys ih => exact (Kept.erase key).trans ih

theorem Kept.pruneExpired (now : K → Nat) : Kept s (s.pruneExpired config now).2 := by
  unfold Cache.pruneExpired
  split
  · exact Kept.foldl_removeEntry _
  · exact Kept.refl s

theorem lookup_remove {k : K} {e : CacheEntry V}
    (h : (s.remove config key).2.entries.lookup k = some e) : k ≠ key ∧ s.entries.lookup k = some e := by
  unfold Cache.remove at h
  split at h
  · exact lookup_erase_eq_some.mp h
  · rename_i hnone
    refine ⟨?_, h⟩
    rintro rfl
    rw [hnone] at h
    cases h

theorem InsertStep.lookup {k : K} {e' : CacheEntry V}
    (h : InsertStep config s key value first now s') (he' : s'.entries.lookup k = some e') :
    k = key ∧ e'.value = value ∧ e'.createdAt = now ∨
      k ≠ key ∧ ∃ e, s.entries.lookup k = some e ∧ e'.value = e.value ∧ e'.createdAt = e.createdAt := by
  have hput : ∀ s₁ : Cache K V, Kept s s₁ → (s₁.put config key value now).entries.lookup k = some e' →
      k = key ∧ e'.value = value ∧ e'.createdAt = now ∨
        k ≠ key ∧ ∃ e, s.entries.lookup k = some e ∧ e'.value = e.value ∧ e'.createdAt = e.createdAt := by
    intro s₁ hkept hl
    by_cases hk : k = key
    · subst hk
      rw [Cache.put, AList.lookup_insert, Option.some.injEq] at hl
      exact Or.inl ⟨rfl, by rw [← hl]; exact ⟨rfl, rfl⟩⟩
    · rw [Cache.put, AList.lookup_insert_ne hk] at hl
      exact Or.inr ⟨hk, hkept k e' hl⟩
  cases h with
  | room => exact hput s (Kept.refl s) he'
  | full _ _ he => exact hput _ he.kept he'

end Cache

end NetworkSystem
