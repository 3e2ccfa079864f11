import NetworkSystem.Breaker.Lemmas.Fields
import NetworkSystem.Breaker.Lemmas.Window
import NetworkSystem.Breaker.Lemmas.Burst
import NetworkSystem.Breaker.Lemmas.Probes

/-!
# When the circuit breaker opens and closes

Once open, the breaker lets nothing through before its timeout. It opens on every burst of failures within
the window, but not only on those: the window bounds the gap between two failures. Half-open, it closes on
successes, but not only on those of the calls it let through as probes. Whatever is recorded, it is never left
open for ever.
-/

namespace NetworkSystem

open Steps

/-! ## Failing fast -/

theorem BreakerCalls.openSince_of_opens {config : CircuitBreakerConfig} {c c' : Clocked BreakerCalls}
    {e : Nat × BreakerEvent} (hs : step config c e = some c')
    (hbefore : c.state.breaker.state ≠ .«open») (hafter : c'.state.breaker.state = .«open») :
    c'.state.breaker = c.state.breaker.recordFailure config e.1 ∧ OpenSince e.1 c'.state.calls c' := by
  obtain ⟨-, hcall, hnow⟩ := clocked_eq_some.mp hs
  have hbreaker := callStep_breaker hcall
  cases hop : e.2.op c.state with
  | none =>
      rw [hop] at hbreaker
      rw [hbreaker] at hafter
      exact absurd hafter hbefore
  | some op =>
      rw [hop] at hbreaker
      have hb : BreakerStep config c.state.breaker e.1 op (c.state.breaker.apply config e.1 op) :=
        CircuitBreaker.apply_step
      have hafter' : (c.state.breaker.apply config e.1 op).state = .«open» := by
        rw [hbreaker] at hafter
        exact hafter
      obtain ⟨rfl, hopened⟩ := hb.opens hbefore hafter'
      refine ⟨hbreaker, hnow.ge, hafter, ?_, fun i hi => hi⟩
      rw [hbreaker]
      exact hopened

/-- A step at `e.1` that opens the breaker, from whatever state, is a `record_failure`. In every run from
there on that neither resets the breaker nor asks it at or after `e.1 + timeout`, whatever is recorded: the
breaker stays open, no call begins to poll its future, and every call that asks is rejected. The first
request after the timeout is let through and makes the breaker half-open. -/
theorem breaker_fails_fast (config : CircuitBreakerConfig) (c c₁ c₂ : Clocked BreakerCalls)
    (e : Nat × BreakerEvent) (es : List (Nat × BreakerEvent))
    (hs : BreakerCalls.step config c e = some c₁)
    (hbefore : c.state.breaker.state ≠ .«open») (hafter : c₁.state.breaker.state = .«open»)
    (hr : run (BreakerCalls.step config) c₁ es = some c₂)
    (hes : ∀ f ∈ es, f.2 ≠ .direct .reset ∧ (f.2.asks = true → f.1 < e.1 + config.timeout)) :
    c₁.state.breaker = c.state.breaker.recordFailure config e.1 ∧
    c₂.state.breaker.state = .«open» ∧
    (∀ (i : Nat), c₂.state.calls[i]? = some .polling → c₁.state.calls[i]? = some .polling) ∧
    (∀ t, c₂.now ≤ t → t < e.1 + config.timeout →
      c₂.state.breaker.isRequestAllowed config t = (false, c₂.state.breaker) ∧
      ∀ i c₃, BreakerCalls.step config c₂ (t, .enter i) = some c₃ →
        c₃.state = ⟨c₂.state.breaker, c₂.state.calls.set i .rejected⟩) ∧
    (∀ t, e.1 + config.timeout ≤ t →
      (c₂.state.breaker.isRequestAllowed config t).1 = true ∧
      (c₂.state.breaker.isRequestAllowed config t).2.state = .halfOpen) := by
  obtain ⟨hfailure, hopen⟩ := BreakerCalls.openSince_of_opens hs hbefore hafter
  have hsince : BreakerCalls.OpenSince e.1 c₁.state.calls c₂ := by
    refine run_preserves ?_ hopen (along_of_forall hes) hr
    intro d f d' h hf hd
    exact h.step hd hf.1 hf.2
  refine ⟨hfailure, hsince.opened, hsince.polling, ?_, ?_⟩
  · intro t hle ht
    have hrefused := BreakerCalls.refused hsince.opened hsince.since (Nat.le_trans hsince.past hle) ht
    refine ⟨hrefused, ?_⟩
    intro i c₃ hs₃
    obtain ⟨-, hcall, -⟩ := clocked_eq_some.mp hs₃
    simp only [BreakerCalls.callStep, hrefused] at hcall
    split at hcall
    · rw [← Option.some.inj hcall]
    · cases hcall
  · intro t ht
    exact BreakerCalls.probed hsince.opened hsince.since ht

/-- A breaker that opens at time 3 while a call polls its future; the success of that call is recorded
afterwards, and the next call is rejected. -/
def lateSuccess : List (Nat × BreakerEvent) :=
  [(4, .poll 0 (some true)), (5, .record 0), (6, .call), (7, .enter 1)]

theorem breaker_fails_fast_after_late_success :
    ∃ c c₁ c₂, run (BreakerCalls.step { failureThreshold := 1, timeout := 10 }) BreakerCalls.fresh
        [(0, .call), (1, .enter 0)] = some c ∧
      BreakerCalls.step { failureThreshold := 1, timeout := 10 } c (3, .direct .recordFailure) = some c₁ ∧
      run (BreakerCalls.step { failureThreshold := 1, timeout := 10 }) c₁ lateSuccess = some c₂ ∧
      c₂.state.calls = [.returned true, .rejected] ∧ c₂.state.breaker.state = .«open» := by
  refine ⟨_, _, _, rfl, rfl, rfl, by decide, ?_⟩
  exact (breaker_fails_fast { failureThreshold := 1, timeout := 10 } ⟨1, ⟨{}, [.polling]⟩⟩ _ _
    (3, .direct .recordFailure) lateSuccess rfl nofun rfl rfl (by decide)).2.1

/-! ## Failures within the window -/

/-- In every run the breaker opens from the closed state only on as many failures within the window as the
threshold says, made while it was closed and with no success since, if and only if no failure fills the
count when the first failure that the count stands for is longer ago than the window. -/
theorem breaker_opens_in_window_iff (config : CircuitBreakerConfig) (es : List (Nat × BreakerOp))
    (hn : 0 < config.failureThreshold) :
    Along (Watched.step config) (Watched.OpensInWindow config) Watched.fresh es ↔
      Along (Watched.step config) (Watched.CountsInWindow config) Watched.fresh es := by
  have hfresh : Watched.Counted config Watched.fresh.now Watched.fresh.state := .fresh hn
  refine along_congr (I := fun c => Watched.Counted config c.now c.state) ?_ ?_ hfresh
  · exact fun c e c' h _ hs => Watched.Counted.step hn h hs
  · exact fun c e h => h.opens_iff hn

theorem breaker_opens_in_window_default :
    Along (Watched.step {}) (Watched.OpensInWindow {}) Watched.fresh
      [(0, .recordFailure), (1, .recordFailure), (2, .recordFailure), (3, .recordFailure),
        (4, .recordFailure)] :=
  (breaker_opens_in_window_iff {} _ (by decide)).mpr (by decide)

/-- Three failures open the breaker, each within the window of the one before; the last has only one of the others
in its window. -/
theorem breaker_opens_on_failures_out_of_window :
    (∃ c, run (Watched.step { failureThreshold := 3, windowSize := 10 }) Watched.fresh
      [(0, .recordFailure), (8, .recordFailure), (16, .recordFailure)] = some c ∧
      c.state.breaker.state = .«open» ∧ c.state.failures = [16, 8, 0]) ∧
    ¬ Along (Watched.step { failureThreshold := 3, windowSize := 10 })
      (Watched.OpensInWindow { failureThreshold := 3, windowSize := 10 }) Watched.fresh
      [(0, .recordFailure), (8, .recordFailure), (16, .recordFailure)] :=
  ⟨⟨_, rfl, by decide⟩, by decide⟩

/-! ## Bursts of failures -/

/-- From every closed state that a run reaches, every run without a success and a reset in which failures as
many as the threshold follow the one at `t` by at most the window opens the breaker before the last of them
is over, and from there on it is never closed. -/
theorem breaker_opens_on_burst (config : CircuitBreakerConfig) (pre before burst after : List (Nat × BreakerOp))
    (t : Nat) (c c' : Clocked CircuitBreaker) (hn : 0 < config.failureThreshold)
    (hpre : run (CircuitBreaker.step config) CircuitBreaker.fresh pre = some c)
    (hc : c.state.state = .closed)
    (hr : run (CircuitBreaker.step config) c (before ++ (t, .recordFailure) :: burst ++ after) = some c')
    (hes : ∀ e ∈ before ++ (t, .recordFailure) :: burst ++ after, e.2 ≠ .recordSuccess ∧ e.2 ≠ .reset)
    (hwindow : ∀ e ∈ burst, e.2 = .recordFailure → e.1 ≤ t + config.windowSize)
    (hburst : config.failureThreshold.toNat ≤ 1 + burst.countP fun e => e.2 == .recordFailure) :
    ∃ p q c₁, before ++ (t, .recordFailure) :: burst = p ++ q ∧
      run (CircuitBreaker.step config) c p = some c₁ ∧ c₁.state.state = .«open» ∧
      Always (CircuitBreaker.step config) (fun d => d.state.state ≠ .closed) c₁ (q ++ after) := by
  obtain ⟨c₃, hr₃, -⟩ := run_append.mp hr
  obtain ⟨c₂, hr₂, hburst'⟩ := run_append.mp hr₃
  have hes₃ : ∀ e ∈ before ++ (t, .recordFailure) :: burst, CircuitBreaker.Unrelieved e.2 :=
    fun e he => hes e (List.mem_append_left _ he)
  have hbelow : c.state.BelowThreshold config := CircuitBreaker.below_threshold hn hpre fun _ => hn
  have hbelow₂ := CircuitBreaker.below_threshold hn hr₂ hbelow
  have hc₃ : c₃.state.state ≠ .closed := by
    refine CircuitBreaker.not_closed_after_burst hn hburst' ?_ hwindow hburst hbelow₂
    exact fun e he => hes₃ e (List.mem_append_right _ (List.mem_cons_of_mem _ he))
  obtain ⟨p, q, c₁, hpq, hp, hopen⟩ := CircuitBreaker.opened_on_the_way hr₃ hes₃ hc hc₃
  refine ⟨p, q, c₁, hpq, hp, hopen, ?_⟩
  rintro mid d ⟨rest, hmid⟩ hd
  refine CircuitBreaker.stays_off hd ?_ (by rw [hopen]; nofun)
  intro e he
  refine hes e ?_
  rw [hpq, List.append_assoc, ← hmid]
  simp [he]

theorem breaker_opens_on_burst_of_two :
    ∃ p q c₁, [((5 : Nat), BreakerOp.isRequestAllowed), (5, .recordFailure), (6, .recordFailure)] = p ++ q ∧
      run (CircuitBreaker.step { failureThreshold := 2 }) ⟨3, { failureCount := 1, lastFailureTime := some 3 }⟩
        p = some c₁ ∧ c₁.state.state = .«open» ∧
      Always (CircuitBreaker.step { failureThreshold := 2 }) (fun d => d.state.state ≠ .closed) c₁
        (q ++ [(7, .recordFailure)]) :=
  breaker_opens_on_burst { failureThreshold := 2 } [(3, .recordFailure)] [(5, .isRequestAllowed)]
    [(6, .recordFailure)] [(7, .recordFailure)] 5 _ _ (by decide) rfl rfl rfl (by decide) (by decide)
    (by decide)

/-! ## Recovery -/

/-- In every run of calls and of direct uses the half-open breaker closes, other than by a reset, only on as many
successes of calls let through since it went half-open as the threshold says, if and only if no success fills
the count when it or one counted before is of a call let through earlier. -/
theorem breaker_recovers_on_probes_iff (config : CircuitBreakerConfig) (es : List (Nat × BreakerEvent)) :
    Along (Probed.step config) (Probed.RecoversOnProbes config) Probed.fresh es ↔
      Along (Probed.step config) (Probed.FilledByProbes config) Probed.fresh es := by
  have hfresh : Probed.Counted config Probed.fresh.state := .fresh
  refine along_congr (I := fun c => Probed.Counted config c.state) ?_ ?_ hfresh
  · exact fun c e c' h _ hs => Probed.Counted.step h hs
  · exact fun c e h => h.recovers_iff

/-- A call let through at time 1 outlasts the closed and the open breaker; its success at time 17 closes the
half-open one while the only probe is still polled. -/
def straggler : List (Nat × BreakerEvent) :=
  [(0, .call), (1, .enter 0), (2, .call), (3, .enter 1), (4, .poll 1 (some false)), (5, .record 1),
    (15, .call), (15, .enter 2), (16, .poll 0 (some true)), (17, .record 0)]

theorem breaker_recovers_on_straggler :
    (∃ c, run (Probed.step { failureThreshold := 1, successThreshold := 1, timeout := 10 }) Probed.fresh
      straggler = some c ∧ c.state.calls.breaker.state = .closed ∧ c.state.probes = [2] ∧
      c.state.calls.calls = [.returned true, .returned false, .polling]) ∧
    ¬ Along (Probed.step { failureThreshold := 1, successThreshold := 1, timeout := 10 })
      (Probed.RecoversOnProbes { failureThreshold := 1, successThreshold := 1, timeout := 10 })
      Probed.fresh straggler :=
  ⟨⟨_, rfl, by decide⟩, by decide⟩

/-! ## Fields -/

/-- In every run of calls and of direct uses, under every clock: closed, the breaker has fewer failures than the
threshold, no successes and no time of opening; open, it has a time of opening, which is past, and no successes;
half-open, it has a time of opening, fewer successes than the threshold and no failures. An open breaker lets a
request through at every reading from the end of its timeout on, and is half-open then. -/
theorem breaker_fields_fit_state (config : CircuitBreakerConfig) (es : List (Nat × BreakerEvent))
    (hf : 0 < config.failureThreshold) (hn : 0 < config.successThreshold) :
    Always (BreakerCalls.step config)
      (fun c => c.state.breaker.WellFormed config ∧ c.state.breaker.CanLeaveOpen config c.now)
      BreakerCalls.fresh es := by
  intro pre c _ hr
  have hsound : BreakerCalls.Sound config c :=
    run_invariant (fun _ _ _ h hs => h.step hf hn hs) (.fresh hf) hr
  exact ⟨hsound.fields, hsound.fields.canLeaveOpen hsound.past⟩

/-- One failure opens the breaker, a request after the timeout makes it half-open, and its success is not yet
enough to close it. -/
def probing : List (Nat × BreakerEvent) :=
  [(1, .direct .recordFailure), (5, .direct .recordFailure), (11, .call), (11, .enter 0),
    (12, .poll 0 (some true)), (13, .record 0)]

theorem breaker_fields_fit_state_while_probing :
    (∃ c ∈ run (BreakerCalls.step { failureThreshold := 1, timeout := 10 }) BreakerCalls.fresh probing,
      c.state.breaker = { state := .halfOpen, successCount := 1, openedAt := some 1,
                          lastFailureTime := some 5 }) ∧
    Always (BreakerCalls.step { failureThreshold := 1, timeout := 10 })
      (fun c => c.state.breaker.WellFormed { failureThreshold := 1, timeout := 10 } ∧
        c.state.breaker.CanLeaveOpen { failureThreshold := 1, timeout := 10 } c.now)
      BreakerCalls.fresh probing :=
  ⟨⟨_, rfl, by decide⟩,
    breaker_fields_fit_state { failureThreshold := 1, timeout := 10 } probing (by decide) (by decide)⟩

end NetworkSystem
