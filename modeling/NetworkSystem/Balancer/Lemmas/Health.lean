import NetworkSystem.Balancer.Lemmas.Entries

/-!
# The results of the health checks

What the last checks of an entry say about its health, kept along a run.
-/

namespace NetworkSystem

open Steps

namespace LoadBalancer

variable {config : HealthCheckConfig} {s s' : LoadBalancer} {e : BalancerEvent} {trace : List BalancerEvent}
  {r : Nat} {b b' : BackendState} {n : UInt32} {ok : Bool} {results : List Bool}

/-! ## The last checks -/

theorem checks_of_none (he : checkOf r e = none) : checks r (e :: trace) = checks r trace :=
  List.filterMap_cons_none he

theorem checks_of_some (he : checkOf r e = some ok) : checks r (e :: trace) = ok :: checks r trace :=
  List.filterMap_cons_some he

theorem checkOf_check {now : Nat} : checkOf r (.check now r ok) = some ok := if_pos rfl

theorem checkOf_eq_some (he : checkOf r e = some ok) : ∃ now, e = .check now r ok := by
  cases e with
  | check now r' isHealthy =>
      simp only [checkOf] at he
      split at he
      · rename_i heq
        cases he
        exact ⟨now, by rw [heq]⟩
      · cases he
  | _ => cases he

theorem toNat_pos (hn : 0 < n) : ∃ m, n.toNat = m + 1 :=
  Nat.exists_eq_add_one.mpr (UInt32.lt_iff_toNat_lt.mp hn)

theorem LastChecks.head (h : LastChecks n ok results) (hn : 0 < n) : results.head? = some ok := by
  obtain ⟨m, hm⟩ := toNat_pos hn
  unfold LastChecks at h
  rw [hm, List.replicate_succ] at h
  cases results with
  | nil => cases h
  | cons result results =>
      rw [List.take_succ_cons, List.cons.injEq] at h
      rw [h.1, List.head?_cons]

/-- Where more than one check is asked for, the one before the last came out like it. -/
theorem LastChecks.previous (h : LastChecks n ok (ok :: results)) (hn : 0 < n) (hone : n ≠ 1) :
    results.head? = some ok := by
  obtain ⟨m, hm⟩ := toNat_pos hn
  unfold LastChecks at h
  rw [hm, List.replicate_succ, List.take_succ_cons, List.cons.injEq] at h
  have hpos : m ≠ 0 := by
    intro hzero
    exact hone (UInt32.toNat_inj.mp (by rw [hm, hzero]; rfl))
  obtain ⟨k, rfl⟩ := Nat.exists_eq_succ_of_ne_zero hpos
  cases results with
  | nil => cases h.2
  | cons result results =>
      rw [List.take_succ_cons, List.replicate_succ, List.cons.injEq] at h
      rw [h.2.1, List.head?_cons]

theorem lastChecks_one : LastChecks 1 ok (ok :: results) := rfl

/-! ## What a check leaves -/

theorem checked_stays_unhealthy {now : Nat} (hb : b.healthy = false) :
    (b.checked n now false).healthy = false := by
  unfold BackendState.checked
  rw [if_neg Bool.false_ne_true]
  split
  · rfl
  · exact hb

theorem checked_unhealthy {now : Nat} (h : n ≤ b.consecutiveFailures) :
    (b.checked n now false).healthy = false := by
  unfold BackendState.checked
  rw [if_neg Bool.false_ne_true, if_pos h]
  rfl

theorem checked_kept {now : Nat} (h : ¬ n ≤ b.consecutiveFailures) : b.checked n now false = b := by
  unfold BackendState.checked
  rw [if_neg Bool.false_ne_true, if_neg h]

/-! ## The entries of a step -/

theorem Step.lt_of_checkOf (h : Step s e s') (he : checkOf r e = some ok) : r < s.entries.length := by
  obtain ⟨now, rfl⟩ := checkOf_eq_some he
  cases h with
  | checked _ hr => exact hr

theorem step_check (now : Nat) (hconfig : s.config.healthCheck = some config) (hb : s.entries[r]? = some b) :
    ∃ s', s.step (.check now r ok) = some s' ∧
      s'.entries[r]? = some (b.checked config.unhealthyThreshold now ok) := by
  obtain ⟨hr, -⟩ := List.getElem?_eq_some_iff.mp hb
  refine ⟨{ s with entries := s.entries.modify r (·.checked config.unhealthyThreshold now ok) }, ?_, ?_⟩
  · simp only [step, check, hconfig, if_pos hr]
  · rw [List.getElem?_modify_eq, hb]
    rfl

/-! ## The condition -/

variable {t t' : List BalancerEvent × LoadBalancer}

theorem ChecksMeetCounter.failed (h : ChecksMeetCounter config r t e) (he : checkOf r e = some false)
    (hb : t.2.entries[r]? = some b) (hhealthy : b.healthy = true)
    (hlast : LastChecks config.unhealthyThreshold false (false :: checks r t.1)) :
    config.unhealthyThreshold ≤ b.consecutiveFailures := by
  have hmeets := h b hb
  rw [he] at hmeets
  exact hmeets hhealthy hlast

theorem ChecksMeetCounter.succeeded (h : ChecksMeetCounter config r t e) (he : checkOf r e = some true)
    (hb : t.2.entries[r]? = some b) : b.healthy = true ∨ config.healthyThreshold = 1 := by
  have hmeets := h b hb
  rw [he] at hmeets
  exact hmeets

/-! ## The invariant -/

/-- What the checks so far say about entry `r`, in a run without `set_backend_health`. -/
structure ChecksTold (config : HealthCheckConfig) (r : Nat) (t : List BalancerEvent × LoadBalancer) : Prop where
  configured : t.2.config.healthCheck = some config
  fresh : t.2.entries.length ≤ r → checks r t.1 = []
  failed : ∀ b, t.2.entries[r]? = some b → LastChecks config.unhealthyThreshold false (checks r t.1) →
    b.healthy = false
  unhealthy : ∀ b, t.2.entries[r]? = some b → b.healthy = false → (checks r t.1).head? = some false

theorem ChecksTold.new (hu : 0 < config.unhealthyThreshold) (r : Nat) (strategy : Strategy) (overflowChecks : Bool)
    (now : Nat) (backends : List Backend) :
    ChecksTold config r ([], .new ⟨strategy, some config⟩ overflowChecks now backends) where
  configured := rfl
  fresh _ := rfl
  failed b _ hlast := by cases hlast.head hu
  unhealthy b hb hhealthy := by
    simp only [LoadBalancer.new, List.getElem?_map, Option.map_eq_some_iff] at hb
    obtain ⟨_, -, rfl⟩ := hb
    cases hhealthy

theorem ChecksTold.follows (h : ChecksTold config r t) (hu : 0 < config.unhealthyThreshold)
    (hset : setsHealth e = false) (hmeets : ChecksMeetCounter config r t e) : FollowsThresholds config r t e := by
  intro s' hs b' hb'
  rcases (step_cases hs).entry hb' with ⟨hlast, he, -⟩ | ⟨b, hb, hstep⟩
  · -- an entry that the step adds has no checks yet
    rw [checks_of_none he, h.fresh hlast.le]
    refine ⟨fun hfailed => ?_, fun b hb => ?_⟩
    · cases hfailed.head hu
    · rw [List.getElem?_eq_none hlast.le] at hb
      cases hb
  · cases hstep with
    | kept he _ hkept =>
        rw [checks_of_none he, hkept]
        refine ⟨h.failed b hb, fun b₀ hb₀ hbefore hafter => ?_⟩
        rw [hb, Option.some.injEq] at hb₀
        rw [hb₀, hbefore] at hafter
        cases hafter
    | set hset' =>
        rw [hset] at hset'
        cases hset'
    | @checked config' now ok hconfig he hcheck =>
        rw [h.configured, Option.some.injEq] at hconfig
        subst hconfig he hcheck
        rw [checks_of_some checkOf_check]
        cases ok with
        | true =>
            refine ⟨fun hfailed => ?_, fun b₀ hb₀ hbefore _ => ?_⟩
            · cases hfailed.head hu
            · rcases hmeets.succeeded checkOf_check hb₀ with hhealthy | hone
              · rw [hbefore] at hhealthy
                cases hhealthy
              · rw [hone]
                exact lastChecks_one
        | false =>
            refine ⟨fun hfailed => ?_, fun b₀ hb₀ hbefore hafter => ?_⟩
            · cases hhealthy : b.healthy with
              | false => exact checked_stays_unhealthy hhealthy
              | true => exact checked_unhealthy (hmeets.failed checkOf_check hb hhealthy hfailed)
            · rw [hb, Option.some.injEq] at hb₀
              rw [hb₀, checked_stays_unhealthy hbefore] at hafter
              cases hafter

theorem ChecksTold.meets (h : ChecksTold config r t) (hh : 0 < config.healthyThreshold)
    (hfollows : FollowsThresholds config r t e) : ChecksMeetCounter config r t e := by
  intro b hb
  cases he : checkOf r e with
  | none => trivial
  | some ok =>
      obtain ⟨now, rfl⟩ := checkOf_eq_some he
      obtain ⟨s', hs, hb'⟩ := step_check now h.configured hb
      have hafter := hfollows s' hs _ hb'
      rw [checks_of_some checkOf_check] at hafter
      cases ok with
      | false =>
          intro hhealthy hfailed
          by_contra hcounter
          have hmarked := hafter.1 hfailed
          rw [checked_kept hcounter, hhealthy] at hmarked
          cases hmarked
      | true =>
          by_contra hneither
          obtain ⟨hhealthy, hone⟩ := not_or.mp hneither
          rw [Bool.not_eq_true] at hhealthy
          have hprevious := (hafter.2 b hb hhealthy rfl).previous hh hone
          rw [h.unhealthy b hb hhealthy] at hprevious
          cases hprevious

theorem ChecksTold.step (h : ChecksTold config r t) (hu : 0 < config.unhealthyThreshold) (hset : setsHealth e = false)
    (hmeets : ChecksMeetCounter config r t e) (hs : traced LoadBalancer.step t e = some t') :
    ChecksTold config r t' := by
  obtain ⟨hs, htrace⟩ := traced_eq_some.mp hs
  have hstep := step_cases hs
  have hfollows := h.follows hu hset hmeets
  refine ⟨?_, fun hr => ?_, fun b hb => ?_, fun b' hb' hhealthy => ?_⟩
  · rw [hstep.config]
    exact h.configured
  · have hlength := hstep.length_le
    rw [htrace]
    cases he : checkOf r e with
    | none => rw [checks_of_none he, h.fresh (by omega)]
    | some ok =>
        have hlt := hstep.lt_of_checkOf he
        omega
  · rw [htrace]
    exact (hfollows _ hs b hb).1
  · rw [htrace]
    rcases hstep.entry hb' with ⟨-, -, hfresh⟩ | ⟨b, hb, hentry⟩
    · rw [hhealthy] at hfresh
      cases hfresh
    · cases hentry with
      | kept he _ hkept =>
          rw [checks_of_none he]
          exact h.unhealthy b hb (by rw [← hkept, hhealthy])
      | set hset' =>
          rw [hset] at hset'
          cases hset'
      | @checked config' now ok hconfig he hcheck =>
          subst he hcheck
          rw [checks_of_some checkOf_check]
          cases ok with
          | true => cases hhealthy
          | false => rfl

end LoadBalancer

end NetworkSystem
