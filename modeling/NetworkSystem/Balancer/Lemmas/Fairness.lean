import NetworkSystem.Balancer.Lemmas.Selection

/-!
# Windows of selections

The picks of a run under a rotating strategy are the visits of a rotation over the candidates, so that a window
that ends before the index wraps counts what a window of the rotation counts.
-/

namespace NetworkSystem

open Steps

namespace LoadBalancer

variable {s s' : LoadBalancer} {e : BalancerEvent} {es : List BalancerEvent} {g : BackendGuard} {roll : Nat}
  {l : List BackendGuard}

/-- A strategy that walks the candidates by `w` from the index as `index` reads it, which wraps at `size`. -/
structure Rotates (l : List BackendGuard) (strategy : Strategy) (w : BackendGuard → Nat) (index : UInt64 → Nat)
    (size : Nat) : Prop where
  index_succ : ∀ i, index (i + 1) = (index i + 1) % size
  index_lt : ∀ i, index i < size
  select : ∀ (s : LoadBalancer) (roll : Nat), s.config.strategy = strategy → s.candidates = l →
    (s.select roll).1 = .ok (Rotation.pick w (index s.roundRobinIndex % Rotation.total w l) l) ∧
      (s.select roll).2.roundRobinIndex = s.roundRobinIndex + 1

variable {strategy : Strategy} {w : BackendGuard → Nat} {index : UInt64 → Nat} {size : Nat}

theorem Rotates.picks (h : Rotates l strategy w index size) (hstrategy : s.config.strategy = strategy)
    (hfixed : Always step (·.candidates = l) s es) (hr : run step s es = some s') :
    s.picks es = (List.range' (index s.roundRobinIndex) (s.picks es).length).map fun k =>
      .ok (Rotation.pick w (k % size % Rotation.total w l) l) := by
  refine outputs_eq (I := fun k s => s.config.strategy = strategy ∧ index s.roundRobinIndex = k % size) ?_
    ⟨hstrategy, (Nat.mod_eq_of_lt (h.index_lt _)).symm⟩ hfixed.along hr
  rintro k s e s' ⟨hstrategy, hindex⟩ hl hs
  have hconfig := (step_cases hs).config
  cases he : isSelect e with
  | false =>
      refine Or.inl ⟨selection_eq_none he, by rw [hconfig, hstrategy], ?_⟩
      rw [(step_cases hs).index he, hindex]
  | true =>
      obtain ⟨roll, rfl⟩ := isSelect_eq_true he
      obtain ⟨hresult, hnext⟩ := h.select s roll hstrategy hl
      cases hs
      refine Or.inr ⟨?_, by rw [hconfig, hstrategy], ?_⟩
      · rw [selection, hresult, hindex]
      · rw [hnext, h.index_succ, hindex, Nat.mod_add_mod]

/-- What a window of selections brings to a candidate. -/
theorem Rotates.count (h : Rotates l strategy w index size) (hstrategy : s.config.strategy = strategy)
    (hfixed : Always step (·.candidates = l) s es) (hr : run step s es = some s') (hl : l.Nodup) (hg : g ∈ l)
    (hpos : 0 < Rotation.total w l) (hwindow : index s.roundRobinIndex + (s.picks es).length ≤ size) :
    ∃ rest ≤ w g, (s.picks es).count (.ok (some g)) = (s.picks es).length / Rotation.total w l * w g + rest ∧
      ((s.picks es).length % Rotation.total w l = 0 → rest = 0) := by
  have hpicks := h.picks hstrategy hfixed hr
  generalize s.picks es = picks at hpicks hwindow ⊢
  obtain ⟨rest, hrest, hcount, hzero⟩ :=
    Rotation.count_pick_window hl hg hpos (index s.roundRobinIndex) picks.length
  refine ⟨rest, hrest, ?_, hzero⟩
  rw [← hcount]
  conv_lhs => rw [hpicks]
  rw [Rotation.count_map_range']
  have hread : ∀ k < picks.length, (index s.roundRobinIndex + k) % size = index s.roundRobinIndex + k :=
    fun k hk => Nat.mod_eq_of_lt (by omega)
  apply le_antisymm
  · refine Nat.count_mono_left fun k hk hpick => ?_
    rwa [hread k hk, Except.ok.injEq] at hpick
  · refine Nat.count_mono_left fun k hk hpick => ?_
    rwa [hread k hk, Except.ok.injEq]

/-! ## The strategies -/

theorem rotates_roundRobin (hl : l ≠ []) :
    Rotates l .roundRobin (fun _ => 1) UInt64.toNat UInt64.size where
  index_succ i := by rw [UInt64.toNat_add]; rfl
  index_lt i := i.toNat_lt_size
  select s roll hstrategy hcandidates := by
    subst hcandidates
    rw [Rotation.total_one]
    exact select_roundRobin hstrategy hl

theorem rotates_weighted (hpos : 0 < totalWeight l) (hsize : totalWeight l < UInt32.size) :
    Rotates l .weightedRoundRobin BackendGuard.weight (fun i => i.toUInt32.toNat) UInt32.size where
  index_succ i := by
    rw [UInt64.toUInt32_add, UInt32.toNat_add]
    rfl
  index_lt i := i.toUInt32.toNat_lt_size
  select s roll hstrategy hcandidates := by
    subst hcandidates
    obtain ⟨hresult, hindex, -⟩ := select_weighted roll hstrategy hpos hsize
    exact ⟨hresult, hindex⟩

theorem div_add_one_eq {m n : Nat} (hn : 0 < n) (hm : m % n ≠ 0) : m / n + 1 = (m + n - 1) / n := by
  have hdiv := Nat.div_add_mod m n
  have hlt := Nat.mod_lt m hn
  symm
  rw [Nat.div_eq_iff hn]
  constructor
  · rw [Nat.add_mul, Nat.mul_comm]
    omega
  · rw [Nat.add_mul, Nat.mul_comm]
    omega

/-- A window of selections under `Strategy::RoundRobin` goes over the candidates in turn. -/
theorem inTurn (hstrategy : s.config.strategy = .roundRobin) (hfixed : Always step (·.candidates = l) s es)
    (hr : run step s es = some s') (hl : l.Nodup)
    (hwindow : s.roundRobinIndex.toNat + (s.picks es).length ≤ UInt64.size) : InTurn l (s.picks es) := by
  intro g hg
  have hpos : 0 < l.length := List.length_pos_of_mem hg
  obtain ⟨rest, hrest, hcount, hzero⟩ := (rotates_roundRobin (List.ne_nil_of_mem hg)).count hstrategy hfixed hr hl hg
    (by rwa [Rotation.total_one]) hwindow
  rw [Rotation.total_one, Nat.mul_one] at hcount
  rw [Rotation.total_one] at hzero
  rw [hcount]
  rcases Nat.le_one_iff_eq_zero_or_eq_one.mp hrest with rfl | rfl
  · exact Or.inl rfl
  · exact Or.inr (div_add_one_eq hpos fun hm => Nat.one_ne_zero (hzero hm))

/-- A window of as many selections under `Strategy::WeightedRoundRobin` as the weights come to picks every
candidate as often as its weight says. -/
theorem byWeight (hstrategy : s.config.strategy = .weightedRoundRobin)
    (hfixed : Always step (·.candidates = l) s es) (hr : run step s es = some s') (hl : l.Nodup)
    (hpos : 0 < totalWeight l) (hsize : totalWeight l < UInt32.size) (hlength : (s.picks es).length = totalWeight l)
    (hwindow : s.roundRobinIndex.toUInt32.toNat + totalWeight l ≤ UInt32.size) : ByWeight l (s.picks es) := by
  intro g hg
  obtain ⟨rest, -, hcount, hzero⟩ := (rotates_weighted hpos hsize).count hstrategy hfixed hr hl hg hpos
    (by rwa [hlength])
  have htotal : Rotation.total BackendGuard.weight l = totalWeight l := rfl
  rw [htotal, hlength] at hcount hzero
  rw [hcount, hzero (Nat.mod_self _), Nat.div_self hpos, Nat.one_mul, Nat.add_zero]

/-- The walks of a run by weight end inside the list of candidates. -/
theorem walksInside (hstrategy : s.config.strategy = .weightedRoundRobin)
    (hfixed : Always step (·.candidates = l) s es) (hpos : 0 < totalWeight l) (hsize : totalWeight l < UInt32.size) :
    Along step WalksInside s es := by
  refine along_of_preserves (I := fun s => s.config.strategy = .weightedRoundRobin) ?_ ?_ hstrategy hfixed.along
  · intro s e s' hstrategy _ hs
    rw [(step_cases hs).config, hstrategy]
  · intro s e hstrategy hl he
    obtain ⟨roll, rfl⟩ := isSelect_eq_true he
    subst hl
    exact (select_weighted _ hstrategy hpos hsize).2.2 he

/-! ## Safe selections -/

/-- Where the weights do not stand in the way, a selection returns a candidate. -/
theorem exists_selected (h : s.candidates ≠ []) (hfit : s.WeightsFit (.select roll)) :
    ∃ g ∈ s.candidates, (s.select roll).1 = .ok (some g) := by
  cases hstrategy : s.config.strategy with
  | weightedRoundRobin =>
      obtain ⟨hpos, hsize⟩ := hfit rfl hstrategy h
      obtain ⟨g, hg⟩ := Rotation.exists_pick (w := BackendGuard.weight)
        (k := s.roundRobinIndex.toUInt32.toNat % totalWeight s.candidates) (l := s.candidates) (Nat.mod_lt _ hpos)
      exact ⟨g, Rotation.pick_mem hg, by rw [(select_weighted _ hstrategy hpos hsize).1, hg]⟩
  | roundRobin =>
      have hlt : s.roundRobinIndex.toNat % s.candidates.length < s.candidates.length :=
        Nat.mod_lt _ (List.length_pos_of_ne_nil h)
      refine ⟨s.candidates[s.roundRobinIndex.toNat % s.candidates.length], List.getElem_mem hlt, ?_⟩
      rw [(select_roundRobin hstrategy h).1, Rotation.pick_one, List.getElem?_eq_getElem hlt]
  | leastConnections =>
      have hne : s.healthyBackends ≠ [] := fun hnil => h (by rw [candidates, hnil, List.map_nil])
      obtain ⟨b, hb⟩ : ∃ b, selectLeastConnections s.healthyBackends = some b :=
        Option.ne_none_iff_exists'.mp fun hnone => hne (List.argmin_eq_none.mp hnone)
      refine ⟨guardOf b, List.mem_map_of_mem (List.argmin_mem hb), ?_⟩
      rw [(select_of_candidates _ h).1, selectBy, hstrategy]
      simp only [hb]
      rfl
  | random =>
      have hlt : roll % s.healthyBackends.length < s.healthyBackends.length :=
        Nat.mod_lt _ (List.length_pos_of_ne_nil fun hnil => h (by rw [candidates, hnil, List.map_nil]))
      have hb : selectRandom roll s.healthyBackends = some s.healthyBackends[roll % s.healthyBackends.length] :=
        List.getElem?_eq_getElem hlt
      refine ⟨guardOf _, List.mem_map_of_mem (List.mem_of_getElem? hb), ?_⟩
      rw [(select_of_candidates _ h).1, selectBy, hstrategy]
      simp only [hb]
      rfl

/-- With a total of zero the remainder is by zero. -/
theorem select_zero (hstrategy : s.config.strategy = .weightedRoundRobin) (h : s.candidates ≠ [])
    (hzero : totalWeight s.candidates = 0) : (s.select roll).1 = .error .remainderByZero := by
  obtain ⟨sum, hsum, heq⟩ := sumWeights_eq s.overflowChecks 0 s.healthyWeights
    (by rw [sum_healthyWeights, hzero]; decide)
  rw [sum_healthyWeights, hzero, UInt32.toNat_zero] at heq
  have hsum₀ : sum = 0 := UInt32.toNat_inj.mp heq
  rw [(select_of_candidates _ h).1, selectBy, hstrategy]
  simp only [selectWeightedRoundRobin]
  rw [← healthyWeights, hsum]
  simp only [if_pos hsum₀]
  rfl

theorem selectsSafely_iff : s.SelectsSafely roll ↔ s.WeightsFit (.select roll) := by
  constructor
  · intro hsafe _ hstrategy h
    have hsize := (additions_fit _ _).mp (hsafe.additions hstrategy)
    rw [sum_healthyWeights, UInt32.toNat_zero, Nat.zero_add] at hsize
    refine ⟨Nat.pos_of_ne_zero fun hzero => ?_, hsize⟩
    obtain ⟨selected, hselected⟩ := hsafe.returns
    rw [select_zero hstrategy h hzero] at hselected
    cases hselected
  · intro hfit
    refine ⟨?_, fun hstrategy => ?_, fun _ _ _ => subtractions_le, fun hhealthy => ?_⟩
    · by_cases h : s.candidates = []
      · exact ⟨none, select_of_none h⟩
      · obtain ⟨g, -, hg⟩ := exists_selected h hfit
        exact ⟨some g, hg⟩
    · rw [additions_fit, sum_healthyWeights, UInt32.toNat_zero, Nat.zero_add]
      by_cases h : s.candidates = []
      · rw [h]
        decide
      · exact (hfit rfl hstrategy h).2
    · obtain ⟨g, hmem, hg⟩ := exists_selected (candidates_ne_nil.mpr hhealthy) hfit
      obtain ⟨hr, b, hentry, hb, -⟩ := mem_candidates.mp hmem
      exact ⟨g, hg, hr, isHealthy_iff.mpr ⟨b, hentry, hb⟩⟩

theorem safeSelection_iff : s.SafeSelection e ↔ s.WeightsFit e := by
  cases e with
  | select roll =>
      rw [← selectsSafely_iff]
      constructor
      · intro h
        exact h roll rfl
      · rintro h roll' he
        cases he
        exact h
  | _ =>
      refine iff_of_true (fun roll he => ?_) (fun he => ?_)
      · cases he
      · cases he

end LoadBalancer

end NetworkSystem
