import NetworkSystem.Cache.Lemmas.Entries

/-!
# The number of entries

An insertion keeps the number of entries within the capacity if and only if the eviction, where one is due,
takes an entry out of the map.
-/

namespace NetworkSystem

variable {K V : Type} [DecidableEq K]

/-! ## Sizes of maps -/

theorem keys_length_insert_of_mem {β : K → Type} {m : AList β} {a : K} {b : β a} (h : a ∈ m) :
    (m.insert a b).keys.length = m.keys.length := by
  rw [AList.keys_insert, List.length_cons, List.length_erase_add_one (AList.mem_keys.mp h)]

theorem keys_length_insert_of_notMem {β : K → Type} {m : AList β} {a : K} {b : β a} (h : a ∉ m) :
    (m.insert a b).keys.length = m.keys.length + 1 := by
  rw [AList.keys_insert, List.length_cons, List.erase_of_not_mem h]

theorem keys_length_erase_of_mem {β : K → Type} {m : AList β} {a : K} (h : a ∈ m) :
    (m.erase a).keys.length + 1 = m.keys.length := by
  rw [AList.keys_erase, List.length_erase_add_one (AList.mem_keys.mp h)]

theorem keys_length_erase_of_notMem {β : K → Type} {m : AList β} {a : K} (h : a ∉ m) :
    (m.erase a).keys.length = m.keys.length := by
  rw [AList.keys_erase, List.erase_of_not_mem h]

theorem keys_length_erase_le {β : K → Type} (m : AList β) (a : K) :
    (m.erase a).keys.length ≤ m.keys.length := by
  rw [AList.keys_erase]
  exact List.length_erase_le

namespace Cache

variable {config : CacheConfig} {s s' : Cache K V} {key first : K} {value : V} {now : Nat}
  {op : CacheOp K V}

theorem mem_of_lookup {entry : CacheEntry V} (h : s.entries.lookup key = some entry) :
    key ∈ s.entries :=
  AList.lookup_isSome.mp (by rw [h]; rfl)

def WithinCapacity (config : CacheConfig) (s : Cache K V) : Prop :=
  (s.stats config).size ≤ (s.stats config).capacity

instance : Decidable (s.WithinCapacity config) := inferInstanceAs (Decidable (_ ≤ _))

/-- When an insertion of the key has to evict, the front of `lru_order` is a key of the map. -/
def FindsVictim (config : CacheConfig) (s : Cache K V) (key : K) : Prop :=
  config.enableLru = true → config.capacity ≤ s.entries.keys.length → key ∉ s.entries →
    (s.lruOrder.head?.any fun front => front ∈ s.entries) = true

instance : Decidable (FindsVictim config s key) :=
  inferInstanceAs (Decidable (_ → _ → _ → _))

def EvictsEntry (config : CacheConfig) (s : Cache K V) : CacheOp K V → Prop
  | .insert key _ _ _ | .getOrInsertWith key _ _ _ _ => s.FindsVictim config key
  | .get _ _ | .remove _ | .clear | .pruneExpired _ => True

instance : Decidable (s.EvictsEntry config op) :=
  match op with
  | .insert key _ _ _ => inferInstanceAs (Decidable (s.FindsVictim config key))
  | .getOrInsertWith key _ _ _ _ => inferInstanceAs (Decidable (s.FindsVictim config key))
  | .get _ _ | .remove _ | .clear | .pruneExpired _ => isTrue trivial

theorem InsertStep.within_iff (hcap : 0 < config.capacity) (hs : s.WithinCapacity config)
    (h : InsertStep config s key value first now s') :
    s'.WithinCapacity config ↔ s.FindsVictim config key := by
  unfold WithinCapacity stats at hs ⊢
  dsimp only at hs ⊢
  cases h with
  | room hroom =>
      refine iff_of_true ?_ fun _ hfull hkey => absurd ⟨hfull, hkey⟩ hroom
      unfold put
      by_cases hkey : key ∈ s.entries
      · rw [keys_length_insert_of_mem hkey]
        exact hs
      · rw [keys_length_insert_of_notMem hkey]
        have : ¬ config.capacity ≤ s.entries.keys.length := fun hfull => hroom ⟨hfull, hkey⟩
        omega
  | full hfull hkey he =>
      cases he with
      | @front front rest hl ho =>
          have hkey' : key ∉ s.entries.erase front := fun h => hkey (AList.mem_erase.mp h).2
          unfold put
          rw [keys_length_insert_of_notMem hkey']
          by_cases hfront : front ∈ s.entries
          · have hlen := keys_length_erase_of_mem hfront
            refine iff_of_true (by omega) fun _ _ _ => ?_
            simpa [ho] using hfront
          · rw [keys_length_erase_of_notMem hfront]
            refine iff_of_false (by omega) fun hv => hfront ?_
            simpa [ho] using hv hl hfull hkey
      | noQueue hl ho =>
          unfold put
          rw [keys_length_insert_of_notMem hkey]
          refine iff_of_false (by omega) fun hv => ?_
          simpa [ho] using hv hl hfull hkey
      | empty hl hempty =>
          rw [hempty] at hfull
          exact absurd hfull (by simp; omega)
      | first hl hfirst =>
          have hkey' : key ∉ s.entries.erase first := fun h => hkey (AList.mem_erase.mp h).2
          have hlen := keys_length_erase_of_mem hfirst
          unfold put
          rw [keys_length_insert_of_notMem hkey']
          refine iff_of_true (by omega) fun hv => ?_
          rw [hl] at hv
          cases hv

theorem insert_refused (h : s.insert config key value first now = none) : config.enableLru = false := by
  by_contra hl
  have hl' : config.enableLru = true := by simpa using hl
  rw [Cache.insert, Option.map_eq_none_iff] at h
  split at h
  · unfold evictOne at h
    rw [if_pos hl'] at h
    split at h <;> cases h
  · cases h

theorem get_size_le : (s.get config key now).2.entries.keys.length ≤ s.entries.keys.length := by
  have hg : GetStep config s key now (s.get config key now) := get_step
  generalize s.get config key now = r at hg
  cases hg with
  | miss => exact le_refl _
  | expire h => exact keys_length_erase_le _ _
  | hit h => exact (keys_length_insert_of_mem (mem_of_lookup h)).le

theorem remove_size_le : (s.remove config key).2.entries.keys.length ≤ s.entries.keys.length := by
  unfold Cache.remove
  split
  · exact keys_length_erase_le _ _
  · exact le_refl _

theorem foldl_removeEntry_size_le (keys : List K) :
    (keys.foldl (removeEntry config) s).entries.keys.length ≤ s.entries.keys.length := by
  induction keys generalizing s with
  | nil => exact le_refl _
  | cons key keys ih =>
      calc (keys.foldl (removeEntry config) (s.removeEntry config key)).entries.keys.length
          ≤ (s.removeEntry config key).entries.keys.length := ih
        _ ≤ s.entries.keys.length := keys_length_erase_le _ _

theorem pruneExpired_size_le (clock : K → Nat) :
    (s.pruneExpired config clock).2.entries.keys.length ≤ s.entries.keys.length := by
  unfold Cache.pruneExpired
  split
  · exact foldl_removeEntry_size_le _
  · exact le_refl _

/-- A `get` that finds nothing leaves the question of a victim as it was: where it takes an expired entry
out, there is room. -/
theorem findsVictim_after_miss (hs : s.WithinCapacity config)
    (h : GetStep config s key now (none, s')) : s'.FindsVictim config key ↔ s.FindsVictim config key := by
  unfold WithinCapacity stats at hs
  dsimp only at hs
  cases h with
  | miss => exact Iff.rfl
  | expire h =>
      have hkey := mem_of_lookup h
      have hlen := keys_length_erase_of_mem hkey
      refine iff_of_true (fun _ hfull => ?_) fun _ _ hnot => absurd hkey hnot
      dsimp only at hfull
      omega

theorem WithinCapacity.step_iff (hcap : 0 < config.capacity) (hs : s.WithinCapacity config)
    (h : s.step config op = some s') : s'.WithinCapacity config ↔ s.EvictsEntry config op := by
  have hshrinks : ∀ {c : Cache K V}, c.entries.keys.length ≤ s.entries.keys.length →
      c.WithinCapacity config := fun hle => Nat.le_trans hle hs
  obtain ⟨⟨reply, s₁⟩, ha, rfl⟩ := Option.map_eq_some_iff.mp h
  cases op with
  | get key now => cases ha; exact iff_of_true (hshrinks get_size_le) trivial
  | remove key => cases ha; exact iff_of_true (hshrinks remove_size_le) trivial
  | clear => cases ha; exact iff_of_true (Nat.zero_le _) trivial
  | pruneExpired clock => cases ha; exact iff_of_true (hshrinks (pruneExpired_size_le clock)) trivial
  | insert key value first now =>
      obtain ⟨c, hi, hc⟩ := Option.map_eq_some_iff.mp ha
      cases hc
      exact (insert_step hi).within_iff hcap hs
  | getOrInsertWith key asked value first now =>
      obtain ⟨⟨v, c⟩, hg, hc⟩ := Option.map_eq_some_iff.mp ha
      cases hc
      have hget : GetStep config s key asked (s.get config key asked) := get_step
      have hsize : (s.get config key asked).2.entries.keys.length ≤ s.entries.keys.length := get_size_le
      rcases getOrInsertWith_cases hg with hhit | ⟨c₁, hmiss, rfl, hi⟩
      · rw [hhit] at hget hsize
        cases hget with
        | hit hl =>
            exact iff_of_true (hshrinks hsize) fun _ _ hnot => absurd (mem_of_lookup hl) hnot
      · rw [hmiss] at hget hsize
        exact (hi.within_iff hcap (hshrinks hsize)).trans (findsVictim_after_miss hs hget)

theorem evictsEntry_of_lru_disabled (hl : config.enableLru = false) : s.EvictsEntry config op := by
  have hvictim : ∀ key, s.FindsVictim config key := by
    intro key hl'
    rw [hl] at hl'
    cases hl'
  cases op with
  | get | remove | clear | pruneExpired => trivial
  | insert key | getOrInsertWith key => exact hvictim key

/-- Only the choice of a key that is not in the map is refused. -/
theorem lru_disabled_of_refused (h : s.step config op = none) : config.enableLru = false := by
  rw [step, Option.map_eq_none_iff] at h
  cases op with
  | get | remove | clear | pruneExpired => cases h
  | insert key value first now => exact insert_refused (Option.map_eq_none_iff.mp h)
  | getOrInsertWith key asked value first now =>
      have hg := Option.map_eq_none_iff.mp h
      unfold getOrInsertWith at hg
      split at hg
      · cases hg
      · exact insert_refused (Option.map_eq_none_iff.mp hg)

end Cache

end NetworkSystem
