import NetworkSystem.Breaker.Lemmas.Step

/-!
# Runs without a success

Without a success and without a reset the breaker leaves the closed state once, to open, and until then
the count grows with every failure that follows the one before within the window.
-/

namespace NetworkSystem

open Steps

namespace CircuitBreaker

def Unrelieved (op : BreakerOp) : Prop := op ≠ .recordSuccess ∧ op ≠ .reset

def isFailure (e : Nat × BreakerOp) : Bool := e.2 == .recordFailure

variable {config : CircuitBreakerConfig} {c c' : Clocked CircuitBreaker} {es : List (Nat × BreakerOp)}

theorem stays_off (hr : run (step config) c es = some c') (hes : ∀ e ∈ es, Unrelieved e.2)
    (hc : c.state.state ≠ .closed) : c'.state.state ≠ .closed := by
  induction es generalizing c with
  | nil => cases hr; exact hc
  | cons e es ih =>
      obtain ⟨c₁, hs, hr⟩ := run_cons_eq_some.mp hr
      obtain ⟨he, hes⟩ := List.forall_mem_cons.mp hes
      exact ih hr hes ((step_eq_some hs).2.2.stays_off hc he.1 he.2)

/-- A breaker that is no longer closed has been open on the way. -/
theorem opened_on_the_way (hr : run (step config) c es = some c') (hes : ∀ e ∈ es, Unrelieved e.2)
    (hc : c.state.state = .closed) (hc' : c'.state.state ≠ .closed) :
    ∃ p q c₁, es = p ++ q ∧ run (step config) c p = some c₁ ∧ c₁.state.state = .«open» := by
  induction es generalizing c with
  | nil => cases hr; exact absurd hc hc'
  | cons e es ih =>
      obtain ⟨c₁, hs, hr⟩ := run_cons_eq_some.mp hr
      obtain ⟨he, hes⟩ := List.forall_mem_cons.mp hes
      by_cases hc₁ : c₁.state.state = .closed
      · obtain ⟨p, q, c₂, rfl, hp, hopen⟩ := ih hr hes hc₁
        exact ⟨e :: p, q, c₂, rfl, run_cons_eq_some.mpr ⟨c₁, hs, hp⟩, hopen⟩
      · refine ⟨[e], es, c₁, rfl, ?_, (step_eq_some hs).2.2.leaves_closed hc hc₁⟩
        exact run_cons_eq_some.mpr ⟨c₁, hs, rfl⟩

theorem below_threshold (hn : 0 < config.failureThreshold) (hr : run (step config) c es = some c')
    (hc : c.state.BelowThreshold config) : c'.state.BelowThreshold config := by
  refine run_invariant (I := fun c => c.state.BelowThreshold config) ?_ hc hr
  intro d e d' h hs
  exact h.step hn (step_eq_some hs).2.2

/-! ## The count of a burst -/

def FailedSince (t : Nat) (s : CircuitBreaker) : Prop := ∃ last, s.lastFailureTime = some last ∧ t ≤ last

theorem windowedCount_of_failedSince {s : CircuitBreaker} {t now : Nat} (h : s.FailedSince t)
    (hnow : now ≤ t + config.windowSize) : s.windowedCount config now = s.failureCount := by
  obtain ⟨last, hlast, hle⟩ := h
  have hexpired : s.windowExpired config now = false := by
    rw [windowExpired, hlast]
    exact decide_eq_false (by omega)
  rw [windowedCount, hexpired]
  rfl

/-- One step of a closed breaker that stays closed, after the first failure of the burst. -/
theorem burst_step {e : Nat × BreakerOp} {t : Nat} (hs : step config c e = some c')
    (he : Unrelieved e.2) (hwindow : e.2 = .recordFailure → e.1 ≤ t + config.windowSize) (ht : t ≤ c.now)
    (hbelow : c.state.BelowThreshold config) (hsince : c.state.FailedSince t)
    (hc : c.state.state = .closed) (hc' : c'.state.state = .closed) :
    c'.state.FailedSince t ∧
      c'.state.failureCount.toNat = c.state.failureCount.toNat + (isFailure e).toNat := by
  obtain ⟨hle, -, hb⟩ := step_eq_some hs
  obtain ⟨now, op⟩ := e
  obtain ⟨now', s'⟩ := c'
  dsimp only at hb hc' hle he hwindow ⊢
  cases hb with
  | pass | refuse => exact ⟨hsince, rfl⟩
  | succeed | recover | progress | ignore => exact absurd rfl he.1
  | reset => exact absurd rfl he.2
  | probe | trip | reopen => cases hc'
  | track h => exact absurd (h.symm.trans hc) nofun
  | fail =>
      refine ⟨⟨now, rfl, Nat.le_trans ht hle⟩, ?_⟩
      have hcount := windowedCount_of_failedSince hsince (hwindow rfl)
      rw [hcount]
      exact toNat_add_one_of_lt (hbelow hc)

theorem burst_count {t : Nat} (hn : 0 < config.failureThreshold)
    (hr : run (step config) c es = some c') (hes : ∀ e ∈ es, Unrelieved e.2)
    (hwindow : ∀ e ∈ es, e.2 = .recordFailure → e.1 ≤ t + config.windowSize) (ht : t ≤ c.now)
    (hbelow : c.state.BelowThreshold config) (hsince : c.state.FailedSince t)
    (hc' : c'.state.state = .closed) :
    c'.state.failureCount.toNat = c.state.failureCount.toNat + es.countP isFailure := by
  induction es generalizing c with
  | nil => cases hr; rfl
  | cons e es ih =>
      have hc : c.state.state = .closed := by
        by_contra hc
        exact stays_off hr hes hc hc'
      obtain ⟨c₁, hs, hr⟩ := run_cons_eq_some.mp hr
      obtain ⟨he, hes⟩ := List.forall_mem_cons.mp hes
      obtain ⟨hwe, hwindow⟩ := List.forall_mem_cons.mp hwindow
      have hc₁ : c₁.state.state = .closed := by
        by_contra hc₁
        exact stays_off hr hes hc₁ hc'
      obtain ⟨hle, hnow, hb⟩ := step_eq_some hs
      obtain ⟨hsince₁, hcount⟩ := burst_step hs he hwe ht hbelow hsince hc hc₁
      have htail := ih hr hes hwindow (by omega) (hbelow.step hn hb) hsince₁
      rw [List.countP_cons, htail, hcount]
      cases isFailure e with
      | true => simp; omega
      | false => simp

/-- As many failures as the threshold, none of them longer than the window after the first, do not leave the
breaker closed. -/
theorem not_closed_after_burst {t : Nat} (hn : 0 < config.failureThreshold)
    (hr : run (step config) c ((t, .recordFailure) :: es) = some c') (hes : ∀ e ∈ es, Unrelieved e.2)
    (hwindow : ∀ e ∈ es, e.2 = .recordFailure → e.1 ≤ t + config.windowSize)
    (hburst : config.failureThreshold.toNat ≤ 1 + es.countP isFailure)
    (hbelow : c.state.BelowThreshold config) : c'.state.state ≠ .closed := by
  intro hc'
  obtain ⟨c₁, hs, hr⟩ := run_cons_eq_some.mp hr
  have hc₁ : c₁.state.state = .closed := by
    by_contra hc₁
    exact stays_off hr hes hc₁ hc'
  obtain ⟨hle, hnow, hb⟩ := step_eq_some hs
  have hbelow₁ := hbelow.step hn hb
  have hbelow' := below_threshold hn hr hbelow₁ hc'
  have hfirst : c₁.state.FailedSince t ∧ 0 < c₁.state.failureCount.toNat := by
    obtain ⟨now₁, s₁⟩ := c₁
    dsimp only at hb hc₁ ⊢
    cases hb with
    | trip | reopen => cases hc₁
    | track h => exact absurd (h.symm.trans hc₁) nofun
    | fail hc =>
        refine ⟨⟨t, rfl, le_refl t⟩, ?_⟩
        rw [toNat_add_one_of_lt (hbelow.windowedCount_lt hn hc)]
        exact Nat.succ_pos _
  have hcount := burst_count hn hr hes hwindow (by omega) hbelow₁ hfirst.1 hc'
  have hlt := UInt32.lt_iff_toNat_lt.mp hbelow'
  have hpos := hfirst.2
  omega

end CircuitBreaker

end NetworkSystem
