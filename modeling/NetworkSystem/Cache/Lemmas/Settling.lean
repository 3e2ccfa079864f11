import NetworkSystem.Cache.Lemmas.Calls

/-!
# What a call under the lock leaves

A call that holds the lock of the map has the rest of its steps fixed. On an empty queue it leaves the mirror of
the map exactly if it still has to queue whatever the map holds.
-/

namespace NetworkSystem

open Cache

variable {K V : Type} [DecidableEq K] {config : CacheConfig} {s : Cache K V} {c : CacheCall K V} {key : K}

namespace CacheCall

/-- The call has the key still to queue or to prune. -/
def owes (key : K) : CacheCall K V → Bool
  | .evicting k _ _ _ | .queueing k _ => decide (k = key)
  | .pruningQueue _ keys _ => decide (key ∈ keys)
  | _ => false

/-! ## The steps still to take -/

theorem settle_of_not_holds (h : c.holds = false) : c.settle config s = s := by
  cases c with
  | moving | evicting | queueing | unqueueing | pruningQueue => cases h
  | _ => rfl

theorem holds_of_owes (h : c.owes key = true) : c.holds = true := by
  cases c with
  | evicting | queueing | pruningQueue => rfl
  | _ => cases h

omit [DecidableEq K] in
theorem Placed.of_not_holds (h : c.holds = false) : c.Placed s := by
  cases c with
  | queueing => cases h
  | _ => trivial

omit [DecidableEq K] in
theorem Placed.of_entries {s' : Cache K V} (h : c.Placed s) (he : s'.entries = s.entries) : c.Placed s' := by
  cases c with
  | queueing key => exact show key ∈ s'.entries from he ▸ h
  | _ => trivial

end CacheCall

/-! ## An empty queue -/

omit [DecidableEq K] in
theorem mirrored_empty {entries : AList fun _ : K => CacheEntry V} :
    Mirrored ⟨entries, []⟩ ↔ ∀ key ∈ entries.keys, False := by
  rw [mirrored_iff_perm, List.nil_perm, List.eq_nil_iff_forall_not_mem]

omit [DecidableEq K] in
theorem mirrored_singleton {entries : AList fun _ : K => CacheEntry V} :
    Mirrored ⟨entries, [key]⟩ ↔ key ∈ entries ∧ ∀ k ∈ entries.keys, key = k := by
  constructor
  · intro h
    refine ⟨(h.same key).mp (List.mem_singleton_self key), ?_⟩
    intro k hk
    exact (List.mem_singleton.mp ((h.same k).mpr hk)).symm
  · rintro ⟨hkey, hall⟩
    refine ⟨List.nodup_singleton key, ?_⟩
    intro k
    rw [List.mem_singleton]
    constructor
    · rintro rfl
      exact hkey
    · exact fun hk => (hall k hk).symm

theorem foldl_removeEntry_empty (keys : List K) (entries : AList fun _ : K => CacheEntry V) :
    keys.foldl (removeEntry config) ⟨entries, []⟩ = ⟨keys.foldl (fun m k => m.erase k) entries, []⟩ := by
  induction keys generalizing entries with
  | nil => rfl
  | cons key keys ih =>
      have hone : removeEntry config ⟨entries, []⟩ key = ⟨entries.erase key, []⟩ := by
        rw [removeEntry, List.erase_nil, ite_self]
      rw [List.foldl_cons, List.foldl_cons, hone, ih]

theorem mem_foldl_erase {k : K} (keys : List K) (entries : AList fun _ : K => CacheEntry V) :
    k ∈ keys.foldl (fun m k => m.erase k) entries ↔ k ∈ entries ∧ k ∉ keys := by
  induction keys generalizing entries with
  | nil => simp
  | cons key keys ih =>
      rw [List.foldl_cons, ih, AList.mem_erase, List.mem_cons, not_or]
      tauto

theorem CacheCall.settle_emptied (hl : config.enableLru = true) (hplaced : c.Placed s) :
    (c.settle config { s with lruOrder := [] }).Mirrored ↔ ∀ key ∈ s.entries.keys, c.owes key = true := by
  have hnone : Mirrored ⟨s.entries, []⟩ ↔ ∀ key ∈ s.entries.keys, false = true := by
    rw [mirrored_empty]
    simp
  cases c with
  | evicting key value now reply =>
      have hput : CacheCall.settle config { s with lruOrder := [] } (.evicting key value now reply) =
          ⟨s.entries.insert key { value, createdAt := now }, [key]⟩ := by
        simp only [CacheCall.settle, evictOne, hl, ↓reduceIte, Option.getD_some, put, List.nil_append]
      rw [hput, mirrored_singleton]
      simp only [CacheCall.owes, decide_eq_true_eq, AList.mem_insert, true_or, true_and, ← AList.mem_keys]
      constructor
      · exact fun h k hk => h k (Or.inr hk)
      · rintro h k (rfl | hk)
        · rfl
        · exact h k hk
  | queueing key reply =>
      have hpush : CacheCall.settle config { s with lruOrder := [] } (.queueing key reply) =
          ⟨s.entries, [key]⟩ := rfl
      rw [hpush, mirrored_singleton, and_iff_right (show key ∈ s.entries from hplaced)]
      simp only [CacheCall.owes, decide_eq_true_eq]
  | pruningQueue key keys count =>
      rw [CacheCall.settle, List.erase_nil, foldl_removeEntry_empty, mirrored_empty]
      simp only [CacheCall.owes, decide_eq_true_eq, ← AList.mem_keys, mem_foldl_erase]
      constructor
      · exact fun h k hk => by_contra fun hnot => h k ⟨hk, hnot⟩
      · exact fun h k hk => hk.2 (h k hk.1)
  | moving key reply =>
      rw [CacheCall.settle, moveToBack, if_neg List.not_mem_nil]
      exact hnone
  | _ => exact hnone

theorem CacheCall.settle_emptied_length (hl : config.enableLru = true) :
    (c.settle config { s with lruOrder := [] }).lruOrder.length ≤ 1 := by
  cases c with
  | evicting => simp [CacheCall.settle, evictOne, hl, put]
  | queueing => exact le_refl _
  | pruningQueue =>
      rw [CacheCall.settle, List.erase_nil, foldl_removeEntry_empty]
      exact Nat.zero_le _
  | moving =>
      rw [CacheCall.settle, moveToBack, if_neg List.not_mem_nil]
      exact Nat.zero_le _
  | _ => exact Nat.zero_le _

/-! ## One step -/

variable {s' : SharedCache K V} {c' : CacheCall K V} {e : CacheEvent K V}

theorem CallStep.locking {s : SharedCache K V} (h : CallStep config s c e s' c')
    (hle : c.holds.toNat ≤ s.entriesLocked.toNat) :
    s'.entriesLocked.toNat + c.holds.toNat = s.entriesLocked.toNat + c'.holds.toNat := by
  cases h with
  | get h | insert h | remove h | prune h => rw [h.free, h.locked]; exact Nat.add_comm _ _
  | order hc hlocked =>
      have hheld : s.entriesLocked = true := by
        rw [hc] at hle
        exact Bool.toNat_eq_one.mp (Nat.le_antisymm (Bool.toNat_le _) hle)
      rw [hc, hlocked, hheld, Nat.add_comm]
  | compute | noTtl | clear | clearQueue => rfl

theorem CallStep.placed {s : SharedCache K V} (h : CallStep config s c e s' c') : c'.Placed s'.cache := by
  cases h with
  | get h | insert h | remove h | prune h => exact h.placed
  | order _ _ _ hplaced => exact hplaced
  | compute | noTtl | clear | clearQueue => trivial

/-- The map is that of the call which holds its lock. -/
theorem CallStep.entries {s : SharedCache K V} (h : CallStep config s c e s' c') (hc : c.holds = false)
    (hlocked : s.entriesLocked = true) : s'.cache.entries = s.cache.entries := by
  cases h with
  | get h | insert h | remove h | prune h => exact absurd (hlocked.symm.trans h.free) (by decide)
  | order hholds => rw [hc] at hholds; cases hholds
  | clear hfree => exact absurd (hlocked.symm.trans hfree) (by decide)
  | compute | noTtl | clearQueue => rfl

end NetworkSystem
