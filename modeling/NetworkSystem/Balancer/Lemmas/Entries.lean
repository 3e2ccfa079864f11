import NetworkSystem.Balancer.LoadBalancer

/-!
# What a step does to the entries and the guards

The selection first, and from it what each step leaves in every entry.
-/

namespace NetworkSystem

namespace LoadBalancer

variable {s s' : LoadBalancer} {e : BalancerEvent} {r : Nat} {b b' : BackendState} {backends : List Listed}
  {selected : Listed} {roll : Nat}

/-! ## The healthy backends -/

theorem mem_healthyBackends :
    (r, b) ∈ s.healthyBackends ↔ r ∈ s.backends ∧ s.entries[r]? = some b ∧ b.healthy = true := by
  simp only [healthyBackends, listed, List.mem_filter, List.mem_filterMap, Option.map_eq_some_iff]
  constructor
  · rintro ⟨⟨r', hr, b', hb, heq⟩, hhealthy⟩
    cases heq
    exact ⟨hr, hb, hhealthy⟩
  · rintro ⟨hr, hb, hhealthy⟩
    exact ⟨⟨r, hr, b, hb, rfl⟩, hhealthy⟩

theorem isHealthy_iff : s.isHealthy r = true ↔ ∃ b, s.entries[r]? = some b ∧ b.healthy = true := by
  rw [isHealthy, Option.any_eq_true]

/-! ## The selection -/

theorem pickWeighted_mem : ∀ {target : UInt32} {backends : List Listed},
    pickWeighted target backends = some selected → selected ∈ backends
  | _, [], h => by cases h
  | target, b :: backends, h => by
      unfold pickWeighted at h
      split at h
      · cases h
        exact List.mem_cons_self
      · exact List.mem_cons_of_mem _ (pickWeighted_mem h)

/-- The balancer after a strategy has run: at most the index has moved. -/
def atIndex (s : LoadBalancer) (index : UInt64) : LoadBalancer := { s with roundRobinIndex := index }

theorem selectWeightedRoundRobin_mem (h : (s.selectWeightedRoundRobin backends).1 = .ok (some selected)) :
    selected ∈ backends := by
  unfold selectWeightedRoundRobin at h
  cases hsum : sumWeights s.overflowChecks 0 (backends.map (·.2.backend.weight)) with
  | error p =>
      rw [hsum] at h
      cases h
  | ok totalWeight =>
      rw [hsum] at h
      simp only at h
      split at h
      · cases h
      · simp only [Except.ok.injEq, Option.or_eq_some_iff] at h
        rcases h with h | ⟨-, h⟩
        · exact pickWeighted_mem h
        · exact List.mem_of_mem_head? h

theorem selectBy_mem (h : (s.selectBy roll backends).1 = .ok (some selected)) : selected ∈ backends := by
  unfold selectBy at h
  split at h
  · simp only [selectRoundRobin, Except.ok.injEq] at h
    exact List.mem_of_getElem? h
  · simp only [selectLeastConnections, Except.ok.injEq] at h
    exact List.argmin_mem h
  · exact selectWeightedRoundRobin_mem h
  · simp only [selectRandom, Except.ok.injEq] at h
    exact List.mem_of_getElem? h

theorem selectBy_atIndex (s : LoadBalancer) (roll : Nat) (backends : List Listed) :
    ∃ index, (s.selectBy roll backends).2 = s.atIndex index := by
  unfold selectBy
  split
  · exact ⟨_, rfl⟩
  · exact ⟨s.roundRobinIndex, rfl⟩
  · unfold selectWeightedRoundRobin
    split
    · exact ⟨s.roundRobinIndex, rfl⟩
    · simp only
      split <;> exact ⟨_, rfl⟩
  · exact ⟨s.roundRobinIndex, rfl⟩

/-- How `select` ends: without a guard, or with one of a healthy backend of the list. -/
inductive SelectEnds (s : LoadBalancer) : Except Panic (Option BackendGuard) × LoadBalancer → Prop where
  | without (result : Except Panic (Option BackendGuard)) (index : UInt64) : SelectEnds s (result, s.atIndex index)
  | selected (index : UInt64) {b : Listed} (hb : b ∈ s.healthyBackends) :
      SelectEnds s (.ok (some ((s.atIndex index).guard b).1), ((s.atIndex index).guard b).2)

theorem select_ends (s : LoadBalancer) (roll : Nat) : SelectEnds s (s.select roll) := by
  unfold select
  split
  · exact .without _ s.roundRobinIndex
  · split
    · exact .without _ s.roundRobinIndex
    · obtain ⟨index, hindex⟩ := selectBy_atIndex s roll s.healthyBackends
      cases hselected : s.selectBy roll s.healthyBackends with
      | mk result s' =>
          rw [hselected] at hindex
          cases hindex
          cases result with
          | error p => exact .without _ index
          | ok selected =>
              cases selected with
              | none => exact .without _ index
              | some b => exact .selected index (selectBy_mem (congrArg Prod.fst hselected))

/-! ## Steps -/

/-- Everything that a step can do. -/
inductive Step (s : LoadBalancer) : BalancerEvent → LoadBalancer → Prop where
  | passed {roll : Nat} (index : UInt64) : Step s (.select roll) (s.atIndex index)
  | selected {roll : Nat} (index : UInt64) {b : Listed} (hb : b ∈ s.healthyBackends) :
      Step s (.select roll) ((s.atIndex index).guard b).2
  | dropped {i : Nat} {g : BackendGuard} (hg : s.guards[i]? = some (some g)) :
      Step s (.drop i)
        { s with entries := s.entries.modify g.state .dropConnection, guards := s.guards.set i none }
  | recorded {i : Nat} {success : Bool} {g : BackendGuard} (hg : s.guards[i]? = some (some g)) :
      Step s (.record i success) { s with entries := s.entries.modify g.state (·.recordRequest success) }
  | added {now : Nat} {backend : Backend} : Step s (.addBackend now backend) (s.addBackend now backend)
  | removed {address : String} : Step s (.removeBackend address) (s.removeBackend address)
  | setNone {now : Nat} {address : String} {healthy : Bool}
      (hnone : s.backends.find? (s.hasAddress address) = none) : Step s (.setBackendHealth now address healthy) s
  | set {now : Nat} {address : String} {healthy : Bool} {r : Nat}
      (hr : s.backends.find? (s.hasAddress address) = some r) :
      Step s (.setBackendHealth now address healthy)
        { s with entries := s.entries.modify r fun b => if healthy then b.markHealthy now else b.markUnhealthy now }
  | checked {now r : Nat} {isHealthy : Bool} {config : HealthCheckConfig}
      (hconfig : s.config.healthCheck = some config) (hr : r < s.entries.length) :
      Step s (.check now r isHealthy)
        { s with entries := s.entries.modify r (·.checked config.unhealthyThreshold now isHealthy) }

theorem step_select : Step s (.select roll) (s.select roll).2 := by
  have hends := select_ends s roll
  generalize s.select roll = r at hends
  cases hends with
  | without result index => exact .passed index
  | selected index hb => exact .selected index hb

theorem step_cases (hs : s.step e = some s') : Step s e s' := by
  cases e with
  | select roll =>
      cases hs
      exact step_select
  | drop i =>
      simp only [step, dropGuard] at hs
      split at hs
      · rename_i g hg
        cases hs
        exact .dropped hg
      · cases hs
  | record i success =>
      simp only [step, record] at hs
      split at hs
      · rename_i g hg
        cases hs
        exact .recorded hg
      · cases hs
  | addBackend now backend =>
      cases hs
      exact .added
  | removeBackend address =>
      cases hs
      exact .removed
  | setBackendHealth now address healthy =>
      cases hs
      unfold setBackendHealth
      split
      · rename_i hnone
        exact .setNone hnone
      · rename_i r hr
        exact .set hr
  | check now r isHealthy =>
      simp only [step, check] at hs
      split at hs
      · rename_i config hconfig
        split at hs
        · rename_i hr
          cases hs
          exact .checked hconfig hr
        · cases hs
      · cases hs

theorem Step.config (h : Step s e s') : s'.config = s.config := by
  cases h <;> rfl

theorem Step.length_le (h : Step s e s') : s.entries.length ≤ s'.entries.length := by
  cases h with
  | passed | removed | setNone => exact Nat.le_refl _
  | added => simp [addBackend]
  | _ => exact (List.length_modify ..).ge

/-! ## The entries -/

/-- What a step leaves in an entry `b`, in terms of the results of its checks and of its health. -/
inductive EntryStep (s : LoadBalancer) (e : BalancerEvent) (r : Nat) (b b' : BackendState) : Prop where
  | checked {config : HealthCheckConfig} {now : Nat} {isHealthy : Bool} (hconfig : s.config.healthCheck = some config)
      (he : e = .check now r isHealthy) (hb : b' = b.checked config.unhealthyThreshold now isHealthy)
  | kept (he : checkOf r e = none) (hset : setsHealth e = false) (hb : b'.healthy = b.healthy)
  | set (hset : setsHealth e = true)

theorem getElem?_modify_eq_some {f : BackendState → BackendState} {entries : List BackendState} {i : Nat}
    (h : (entries.modify i f)[r]? = some b') :
    ∃ b, entries[r]? = some b ∧ b' = if i = r then f b else b := by
  rw [List.getElem?_modify] at h
  obtain ⟨b, hb, rfl⟩ := Option.map_eq_some_iff.mp h
  exact ⟨b, hb, rfl⟩

/-- A write to one entry that keeps its health keeps the health of all. -/
theorem modify_kept {f : BackendState → BackendState} {i : Nat} (hf : ∀ b, (f b).healthy = b.healthy)
    (he : checkOf r e = none) (hset : setsHealth e = false)
    (h : (s.entries.modify i f)[r]? = some b') : ∃ b, s.entries[r]? = some b ∧ EntryStep s e r b b' := by
  obtain ⟨b, hb, rfl⟩ := getElem?_modify_eq_some h
  refine ⟨b, hb, .kept he hset ?_⟩
  split
  · exact hf b
  · rfl

theorem recordRequest_healthy {success : Bool} : (b.recordRequest success).healthy = b.healthy := by
  unfold BackendState.recordRequest
  split <;> rfl

/-- An entry after a step is one that the step adds, or what the step leaves in one that was there. -/
theorem Step.entry (h : Step s e s') (hb' : s'.entries[r]? = some b') :
    (s.entries.length = r ∧ checkOf r e = none ∧ b'.healthy = true) ∨
      ∃ b, s.entries[r]? = some b ∧ EntryStep s e r b b' := by
  cases h with
  | passed => exact Or.inr ⟨b', hb', .kept rfl rfl rfl⟩
  | selected => exact Or.inr (modify_kept (f := .addConnection) (fun _ => rfl) rfl rfl hb')
  | dropped => exact Or.inr (modify_kept (f := .dropConnection) (fun _ => rfl) rfl rfl hb')
  | recorded => exact Or.inr (modify_kept (fun _ => recordRequest_healthy) rfl rfl hb')
  | added =>
      simp only [addBackend, List.getElem?_append] at hb'
      split at hb'
      · exact Or.inr ⟨b', hb', .kept rfl rfl rfl⟩
      · rw [List.getElem?_singleton] at hb'
        split at hb'
        · cases hb'
          exact Or.inl ⟨by omega, rfl, rfl⟩
        · cases hb'
  | removed => exact Or.inr ⟨b', hb', .kept rfl rfl rfl⟩
  | setNone => exact Or.inr ⟨b', hb', .set rfl⟩
  | set =>
      obtain ⟨b, hb, -⟩ := getElem?_modify_eq_some hb'
      exact Or.inr ⟨b, hb, .set rfl⟩
  | @checked now i isHealthy config hconfig hr =>
      obtain ⟨b, hb, rfl⟩ := getElem?_modify_eq_some hb'
      refine Or.inr ⟨b, hb, ?_⟩
      by_cases hi : i = r
      · rw [if_pos hi]
        exact .checked hconfig (by rw [hi]) rfl
      · rw [if_neg hi]
        exact .kept (if_neg hi) rfl rfl

end LoadBalancer

end NetworkSystem
