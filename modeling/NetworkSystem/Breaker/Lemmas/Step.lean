import NetworkSystem.Breaker.CircuitBreaker

/-!
# The steps of the breaker

`BreakerStep` lists what the functions of the breaker do, branch by branch. Every invariant of the breaker is
derived from it.
-/

namespace NetworkSystem

open Steps

inductive BreakerStep (config : CircuitBreakerConfig) (s : CircuitBreaker) (now : Nat) :
    BreakerOp → CircuitBreaker → Prop
  | pass (h : s.state ≠ .«open») : BreakerStep config s now .isRequestAllowed s
  | probe {openedAt : Nat} (h : s.state = .«open») (ho : s.openedAt = some openedAt)
      (ht : config.timeout ≤ now - openedAt) :
      BreakerStep config s now .isRequestAllowed
        { s with state := .halfOpen, successCount := 0, failureCount := 0 }
  | refuse (h : s.state = .«open»)
      (ht : ∀ openedAt, s.openedAt = some openedAt → now - openedAt < config.timeout) :
      BreakerStep config s now .isRequestAllowed s
  | succeed (h : s.state = .closed) :
      BreakerStep config s now .recordSuccess { s with failureCount := 0, lastFailureTime := none }
  | recover (h : s.state = .halfOpen) (hc : config.successThreshold ≤ s.successCount + 1) :
      BreakerStep config s now .recordSuccess
        { s with state := .closed, failureCount := 0, successCount := 0, openedAt := none }
  | progress (h : s.state = .halfOpen) (hc : ¬ config.successThreshold ≤ s.successCount + 1) :
      BreakerStep config s now .recordSuccess { s with successCount := s.successCount + 1 }
  | ignore (h : s.state = .«open») : BreakerStep config s now .recordSuccess s
  | trip (h : s.state = .closed) (hc : config.failureThreshold ≤ s.windowedCount config now + 1) :
      BreakerStep config s now .recordFailure
        { s with failureCount := s.windowedCount config now + 1, lastFailureTime := some now,
                 state := .«open», openedAt := some now }
  | fail (h : s.state = .closed) (hc : ¬ config.failureThreshold ≤ s.windowedCount config now + 1) :
      BreakerStep config s now .recordFailure
        { s with failureCount := s.windowedCount config now + 1, lastFailureTime := some now }
  | reopen (h : s.state = .halfOpen) :
      BreakerStep config s now .recordFailure
        { s with failureCount := 1, lastFailureTime := some now, state := .«open»,
                 openedAt := some now, successCount := 0 }
  | track (h : s.state = .«open») :
      BreakerStep config s now .recordFailure
        { s with failureCount := s.windowedCount config now + 1, lastFailureTime := some now }
  | reset : BreakerStep config s now .reset s.reset

variable {config : CircuitBreakerConfig} {s s' : CircuitBreaker} {now : Nat} {op : BreakerOp}

namespace CircuitBreaker

theorem isRequestAllowed_step :
    BreakerStep config s now .isRequestAllowed (s.isRequestAllowed config now).2 := by
  obtain ⟨state, failureCount, successCount, lastFailureTime, openedAt⟩ := s
  cases state with
  | closed => exact .pass nofun
  | halfOpen => exact .pass nofun
  | «open» =>
      cases openedAt with
      | none => exact .refuse rfl nofun
      | some openedAt =>
          by_cases ht : now - openedAt ≥ config.timeout
          · simp only [isRequestAllowed, ht, ↓reduceIte]
            exact .probe rfl rfl ht
          · simp only [isRequestAllowed, ht, ↓reduceIte]
            refine .refuse rfl ?_
            intro openedAt' ho
            cases ho
            exact Nat.lt_of_not_le ht

theorem recordSuccess_step : BreakerStep config s now .recordSuccess (s.recordSuccess config) := by
  obtain ⟨state, failureCount, successCount, lastFailureTime, openedAt⟩ := s
  cases state with
  | closed => exact .succeed rfl
  | «open» => exact .ignore rfl
  | halfOpen =>
      by_cases hc : config.successThreshold ≤ successCount + 1
      · simp only [recordSuccess, ge_iff_le, hc, ↓reduceIte]
        exact .recover rfl hc
      · simp only [recordSuccess, ge_iff_le, hc, ↓reduceIte]
        exact .progress rfl hc

theorem recordFailure_step :
    BreakerStep config s now .recordFailure (s.recordFailure config now) := by
  obtain ⟨state, failureCount, successCount, lastFailureTime, openedAt⟩ := s
  cases state with
  | «open» => exact .track rfl
  | halfOpen => exact .reopen rfl
  | closed =>
      simp only [recordFailure, ge_iff_le]
      split
      · exact .trip rfl ‹_›
      · exact .fail rfl ‹_›

theorem apply_step : BreakerStep config s now op (s.apply config now op) := by
  cases op with
  | isRequestAllowed => exact isRequestAllowed_step
  | recordSuccess => exact recordSuccess_step
  | recordFailure => exact recordFailure_step
  | reset => exact .reset

theorem step_eq_some {c c' : Clocked CircuitBreaker} {e : Nat × BreakerOp}
    (h : step config c e = some c') :
    c.now ≤ e.1 ∧ c'.now = e.1 ∧ BreakerStep config c.state e.1 e.2 c'.state := by
  obtain ⟨hle, hs, hn⟩ := clocked_eq_some.mp h
  rw [Option.some.injEq] at hs
  rw [← hs]
  exact ⟨hle, hn, apply_step⟩

end CircuitBreaker

/-! ## Transitions -/

theorem BreakerStep.opens (h : BreakerStep config s now op s') (hs : s.state ≠ .«open»)
    (hs' : s'.state = .«open») : op = .recordFailure ∧ s'.openedAt = some now := by
  cases h with
  | trip | reopen => exact ⟨rfl, rfl⟩
  | pass | ignore | fail | progress => exact absurd hs' hs
  | refuse h | track h | probe h => exact absurd h hs
  | succeed h => exact absurd (h.symm.trans hs') nofun
  | recover | reset => cases hs'

/-- The breaker stays open, whatever is recorded, until it is asked after the timeout or reset. -/
theorem BreakerStep.stays_open {openedAt : Nat} (h : BreakerStep config s now op s')
    (hs : s.state = .«open») (ho : s.openedAt = some openedAt) (hle : openedAt ≤ now)
    (hr : op ≠ .reset) (ht : op = .isRequestAllowed → now < openedAt + config.timeout) :
    s'.state = .«open» ∧ s'.openedAt = some openedAt := by
  cases h with
  | refuse | ignore | track => exact ⟨hs, ho⟩
  | pass h => exact absurd hs h
  | probe h ho' ht' =>
      rw [ho, Option.some.injEq] at ho'
      have := ht rfl
      omega
  | succeed h | recover h | progress h | trip h | fail h | reopen h =>
      exact absurd (hs.symm.trans h) nofun
  | reset => exact absurd rfl hr

theorem BreakerStep.stays_off (h : BreakerStep config s now op s') (hs : s.state ≠ .closed)
    (hsuccess : op ≠ .recordSuccess) (hreset : op ≠ .reset) : s'.state ≠ .closed := by
  cases h with
  | pass | refuse | track => exact hs
  | probe | trip | reopen => nofun
  | fail h => exact absurd h hs
  | succeed | recover | progress | ignore => exact absurd rfl hsuccess
  | reset => exact absurd rfl hreset

/-- A closed breaker opens before it is half-open. -/
theorem BreakerStep.leaves_closed (h : BreakerStep config s now op s') (hs : s.state = .closed)
    (hs' : s'.state ≠ .closed) : s'.state = .«open» := by
  cases h with
  | trip => rfl
  | pass | ignore | refuse | track | fail | succeed | progress => exact absurd hs hs'
  | probe h => exact absurd (hs.symm.trans h) nofun
  | reopen => rfl
  | recover | reset => exact absurd rfl hs'

/-- While the breaker is closed the failures have not reached the threshold. -/
def CircuitBreaker.BelowThreshold (config : CircuitBreakerConfig) (s : CircuitBreaker) : Prop :=
  s.state = .closed → s.failureCount < config.failureThreshold

theorem CircuitBreaker.BelowThreshold.step (hn : 0 < config.failureThreshold)
    (hs : s.BelowThreshold config) (h : BreakerStep config s now op s') : s'.BelowThreshold config := by
  intro hc
  cases h with
  | pass | refuse | ignore => exact hs hc
  | succeed | recover | reset => exact hn
  | probe | trip | reopen => cases hc
  | progress h | track h => exact absurd (h.symm.trans hc) nofun
  | fail _ hlt => exact UInt32.not_le.mp hlt

theorem CircuitBreaker.BelowThreshold.windowedCount_lt (hn : 0 < config.failureThreshold)
    (hs : s.BelowThreshold config) (hc : s.state = .closed) :
    s.windowedCount config now < config.failureThreshold := by
  unfold windowedCount
  split
  · exact hn
  · exact hs hc

theorem toNat_add_one_of_lt {a b : UInt32} (h : a < b) : (a + 1).toNat = a.toNat + 1 := by
  have hab := UInt32.lt_iff_toNat_lt.mp h
  have hb := b.toNat_lt
  rw [UInt32.toNat_add, UInt32.toNat_one, Nat.mod_eq_of_lt (by omega)]

end NetworkSystem
