import NetworkSystem.Balancer.Lemmas.Entries
import NetworkSystem.Balancer.Selection
import NetworkSystem.Lib.Rotation

/-!
# The rotating strategies

Both walk the candidates by a residue of the index, `select_round_robin` with weights of one. The weights are
added up in `u32`, which comes out as the sum in numbers exactly where that fits.
-/

namespace NetworkSystem

open Steps

namespace LoadBalancer

variable {s s' : LoadBalancer} {e : BalancerEvent} {r : Nat} {b : BackendState} {g : BackendGuard} {roll : Nat}
  {total : UInt32} {weights : List UInt32} {target : UInt32} {backends : List Listed}

/-! ## The candidates -/

theorem mem_candidates : g ∈ s.candidates ↔
    g.state ∈ s.backends ∧ ∃ b, s.entries[g.state]? = some b ∧ b.healthy = true ∧ b.backend = g.backend := by
  simp only [candidates, List.mem_map]
  constructor
  · rintro ⟨⟨r, b⟩, hb, rfl⟩
    obtain ⟨hr, hentry, hhealthy⟩ := mem_healthyBackends.mp hb
    exact ⟨hr, b, hentry, hhealthy, rfl⟩
  · rintro ⟨hr, b, hentry, hhealthy, hbackend⟩
    exact ⟨(g.state, b), mem_healthyBackends.mpr ⟨hr, hentry, hhealthy⟩, by rw [hbackend]⟩

theorem candidates_ne_nil : s.candidates ≠ [] ↔ ∃ r ∈ s.backends, s.isHealthy r = true := by
  constructor
  · intro hne
    obtain ⟨g, hg⟩ := List.exists_mem_of_ne_nil _ hne
    obtain ⟨hr, b, hentry, hhealthy, -⟩ := mem_candidates.mp hg
    exact ⟨g.state, hr, isHealthy_iff.mpr ⟨b, hentry, hhealthy⟩⟩
  · rintro ⟨r, hr, hhealthy⟩
    obtain ⟨b, hentry, hb⟩ := isHealthy_iff.mp hhealthy
    exact List.ne_nil_of_mem (mem_candidates (g := ⟨b.backend, r⟩).mpr ⟨hr, b, hentry, hb, rfl⟩)

/-- The list names every entry once, and none that is not there. -/
structure ListsOnce (s : LoadBalancer) : Prop where
  nodup : s.backends.Nodup
  bound : ∀ r ∈ s.backends, r < s.entries.length

theorem ListsOnce.new (config : LoadBalancerConfig) (overflowChecks : Bool) (now : Nat) (backends : List Backend) :
    (LoadBalancer.new config overflowChecks now backends).ListsOnce where
  nodup := List.nodup_range
  bound r hr := by
    rw [LoadBalancer.new, List.mem_range] at hr
    rwa [LoadBalancer.new, List.length_map]

theorem ListsOnce.step (h : s.ListsOnce) (hs : s.step e = some s') : s'.ListsOnce := by
  have hlength := (step_cases hs).length_le
  cases step_cases hs with
  | added =>
      constructor
      · rw [addBackend, List.nodup_append]
        refine ⟨h.nodup, List.nodup_singleton _, ?_⟩
        rintro r hr r' hr' rfl
        rw [List.mem_singleton.mp hr'] at hr
        exact absurd (h.bound _ hr) (Nat.lt_irrefl _)
      · intro r hr
        rw [addBackend, List.length_append]
        rcases List.mem_append.mp hr with hr | hr
        · exact Nat.lt_add_right _ (h.bound r hr)
        · rw [List.mem_singleton.mp hr]
          exact Nat.lt_succ_self _
  | removed =>
      exact ⟨h.nodup.filter _, fun r hr => h.bound r (List.mem_of_mem_filter hr)⟩
  | _ => exact ⟨h.nodup, fun r hr => Nat.lt_of_lt_of_le (h.bound r hr) hlength⟩

theorem ListsOnce.candidates (h : s.ListsOnce) : s.candidates.Nodup := by
  have hlisted : s.listed.Nodup := by
    refine h.nodup.filterMap fun r r' b hb hb' => ?_
    simp only [Option.mem_def, Option.map_eq_some_iff] at hb hb'
    obtain ⟨_, -, rfl⟩ := hb
    obtain ⟨_, -, heq⟩ := hb'
    exact (congrArg Prod.fst heq).symm
  refine (hlisted.filter _).map_on ?_
  rintro ⟨r, b⟩ hb ⟨r', b'⟩ hb' heq
  obtain ⟨-, hentry, -⟩ := mem_healthyBackends.mp hb
  obtain ⟨-, hentry', -⟩ := mem_healthyBackends.mp hb'
  rw [BackendGuard.mk.injEq] at heq
  obtain ⟨-, rfl⟩ := heq
  rw [hentry, Option.some.injEq] at hentry'
  rw [hentry']

/-! ## The sum of the weights -/

theorem additions_fit (total : UInt32) (weights : List UInt32) :
    (∀ x ∈ additions total weights, x.1.toNat + x.2.toNat < UInt32.size) ↔
      total.toNat + (weights.map UInt32.toNat).sum < UInt32.size := by
  induction weights generalizing total with
  | nil => simpa [additions] using total.toNat_lt_size
  | cons weight weights ih =>
      simp only [additions, List.forall_mem_cons, ih, List.map_cons, List.sum_cons]
      rw [UInt32.toNat_add]
      constructor
      · rintro ⟨hhead, hsum⟩
        rw [Nat.mod_eq_of_lt hhead] at hsum
        omega
      · intro hsum
        have hhead : total.toNat + weight.toNat < UInt32.size := by omega
        refine ⟨hhead, ?_⟩
        rw [Nat.mod_eq_of_lt hhead]
        omega

theorem sumWeights_eq (overflowChecks : Bool) (total : UInt32) (weights : List UInt32)
    (h : total.toNat + (weights.map UInt32.toNat).sum < UInt32.size) :
    ∃ sum, sumWeights overflowChecks total weights = .ok sum ∧
      sum.toNat = total.toNat + (weights.map UInt32.toNat).sum := by
  induction weights generalizing total with
  | nil => exact ⟨total, rfl, by simp⟩
  | cons weight weights ih =>
      simp only [List.map_cons, List.sum_cons] at h
      have hhead : total.toNat + weight.toNat < UInt32.size := by omega
      have hadd : (total + weight).toNat = total.toNat + weight.toNat := by
        rw [UInt32.toNat_add, Nat.mod_eq_of_lt hhead]
      obtain ⟨sum, hsum, heq⟩ := ih (total + weight) (by rw [hadd]; omega)
      refine ⟨sum, ?_, ?_⟩
      · have hno : ¬ (overflowChecks && decide (total.toNat + weight.toNat ≥ UInt32.size)) = true := by
          simp only [Bool.and_eq_true, decide_eq_true_eq, not_and]
          omega
        rw [sumWeights, if_neg hno, hsum]
      · rw [heq, hadd, List.map_cons, List.sum_cons]
        omega

theorem sum_healthyWeights : (s.healthyWeights.map UInt32.toNat).sum = totalWeight s.candidates := by
  simp only [healthyWeights, totalWeight, candidates, List.map_map]
  rfl

/-! ## The walk -/

theorem pickWeighted_eq {target : UInt32} {backends : List Listed} :
    pickWeighted target backends = Rotation.pick (·.2.backend.weight.toNat) target.toNat backends := by
  induction backends generalizing target with
  | nil => rfl
  | cons b backends ih =>
      rw [pickWeighted, Rotation.pick]
      simp only [UInt32.lt_iff_toNat_lt]
      split
      · rfl
      · rename_i hle
        rw [ih, UInt32.toNat_sub_of_le _ _ (UInt32.le_iff_toNat_le.mpr (by omega))]

theorem subtractions_le {target : UInt32} {backends : List Listed} :
    ∀ x ∈ subtractions target backends, x.2 ≤ x.1 := by
  intro x hx
  induction backends generalizing target with
  | nil => cases hx
  | cons b backends ih =>
      unfold subtractions at hx
      split at hx
      · cases hx
      · rename_i hle
        rcases List.mem_cons.mp hx with rfl | hx
        · exact UInt32.not_lt.mp hle
        · exact ih hx

/-! ## What the strategies return -/

def guardOf (b : Listed) : BackendGuard := ⟨b.2.backend, b.1⟩

theorem select_of_candidates (roll : Nat) (h : s.candidates ≠ []) :
    (s.select roll).1 = (s.selectBy roll s.healthyBackends).1.map (Option.map guardOf) ∧
      (s.select roll).2.roundRobinIndex = (s.selectBy roll s.healthyBackends).2.roundRobinIndex := by
  have hbackends : s.backends.isEmpty = false := by
    obtain ⟨r, hr, -⟩ := candidates_ne_nil.mp h
    exact List.isEmpty_eq_false_iff.mpr (List.ne_nil_of_mem hr)
  have hhealthy : s.healthyBackends.isEmpty = false :=
    List.isEmpty_eq_false_iff.mpr fun hnil => h (by rw [candidates, hnil, List.map_nil])
  unfold select
  rw [hbackends, hhealthy]
  rcases s.selectBy roll s.healthyBackends with ⟨p | _ | b, s'⟩ <;> exact ⟨rfl, rfl⟩

theorem select_of_none (h : s.candidates = []) : (s.select roll).1 = .ok none := by
  have hhealthy : s.healthyBackends.isEmpty = true := List.isEmpty_iff.mpr (List.map_eq_nil_iff.mp h)
  unfold select
  rw [hhealthy]
  split <;> rfl

/-- Under `Strategy::RoundRobin` the candidate at the index is returned, modulo their number. -/
theorem select_roundRobin (hstrategy : s.config.strategy = .roundRobin) (h : s.candidates ≠ []) :
    (s.select roll).1 = .ok (Rotation.pick (fun _ => 1) (s.roundRobinIndex.toNat % s.candidates.length) s.candidates) ∧
      (s.select roll).2.roundRobinIndex = s.roundRobinIndex + 1 := by
  obtain ⟨hresult, hindex⟩ := select_of_candidates roll h
  rw [hresult, hindex, selectBy, hstrategy]
  refine ⟨?_, rfl⟩
  simp only [selectRoundRobin, Rotation.pick_one, candidates, List.length_map, List.getElem?_map]
  rfl

/-- Under `Strategy::WeightedRoundRobin` the candidates are walked by their weights, from the index modulo their
total. The loop ends at one of them. -/
theorem select_weighted (roll : Nat) (hstrategy : s.config.strategy = .weightedRoundRobin)
    (hpos : 0 < totalWeight s.candidates) (hsize : totalWeight s.candidates < UInt32.size) :
    (s.select roll).1 = .ok (Rotation.pick BackendGuard.weight
        (s.roundRobinIndex.toUInt32.toNat % totalWeight s.candidates) s.candidates) ∧
      (s.select roll).2.roundRobinIndex = s.roundRobinIndex + 1 ∧ s.WalksInside (.select roll) := by
  have h : s.candidates ≠ [] := by
    intro hnil
    rw [hnil] at hpos
    exact Nat.lt_irrefl _ hpos
  obtain ⟨hresult, hindex⟩ := select_of_candidates roll h
  obtain ⟨sum, hsum, heq⟩ := sumWeights_eq s.overflowChecks 0 s.healthyWeights
    (by rw [sum_healthyWeights]; simpa using hsize)
  rw [sum_healthyWeights, UInt32.toNat_zero, Nat.zero_add] at heq
  have hne : sum ≠ 0 := by
    rintro rfl
    rw [UInt32.toNat_zero] at heq
    omega
  have hwalk : pickWeighted (s.roundRobinIndex.toUInt32 % sum) s.healthyBackends =
      Rotation.pick (·.2.backend.weight.toNat)
        (s.roundRobinIndex.toUInt32.toNat % totalWeight s.candidates) s.healthyBackends := by
    rw [pickWeighted_eq, UInt32.toNat_mod, heq]
  have htotal : Rotation.total (fun b : Listed => b.2.backend.weight.toNat) s.healthyBackends =
      totalWeight s.candidates := by
    rw [← sum_healthyWeights, healthyWeights, List.map_map]
    rfl
  obtain ⟨b, hb⟩ : ∃ b, pickWeighted (s.roundRobinIndex.toUInt32 % sum) s.healthyBackends = some b := by
    rw [hwalk]
    exact Rotation.exists_pick (by rw [htotal]; exact Nat.mod_lt _ hpos)
  have hcandidate : Rotation.pick BackendGuard.weight
      (s.roundRobinIndex.toUInt32.toNat % totalWeight s.candidates) s.candidates = some (guardOf b) := by
    rw [candidates, Rotation.pick_map, ← candidates]
    exact congrArg (Option.map guardOf) (hwalk.symm.trans hb)
  have hselect : s.selectBy roll s.healthyBackends =
      (.ok (some b), { s with roundRobinIndex := s.roundRobinIndex + 1 }) := by
    rw [selectBy, hstrategy]
    simp only [selectWeightedRoundRobin]
    rw [← healthyWeights, hsum]
    simp only [if_neg hne, hb, Option.some_or]
  rw [hresult, hindex, hselect, hcandidate]
  refine ⟨rfl, rfl, fun _ => ⟨sum, hsum, hne, ?_, subtractions_le⟩⟩
  rw [hb]
  rfl

/-! ## The index -/

theorem Step.index (h : Step s e s') (he : isSelect e = false) :
    s'.roundRobinIndex = s.roundRobinIndex := by
  cases h with
  | passed | selected => cases he
  | _ => rfl

theorem selection_eq_none (he : isSelect e = false) : selection s e = none := by
  cases e with
  | select => cases he
  | _ => rfl

theorem isSelect_eq_true (he : isSelect e = true) : ∃ roll, e = .select roll := by
  cases e with
  | select roll => exact ⟨roll, rfl⟩
  | _ => cases he

end LoadBalancer

end NetworkSystem
