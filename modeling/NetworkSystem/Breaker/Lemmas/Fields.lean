import NetworkSystem.Breaker.Lemmas.Calls

/-!
# The fields of the breaker

Each state of the breaker fixes what the other fields hold. A transition writes only some of the fields, so
that a state relies on what the one before left in the rest.
-/

namespace NetworkSystem

open Steps

namespace CircuitBreaker

structure WellFormed (config : CircuitBreakerConfig) (s : CircuitBreaker) : Prop where
  closed : s.state = .closed →
    s.failureCount < config.failureThreshold ∧ s.successCount = 0 ∧ s.openedAt = none
  opened : s.state = .«open» → s.openedAt.isSome = true ∧ s.successCount = 0
  halfOpen : s.state = .halfOpen →
    s.openedAt.isSome = true ∧ s.successCount < config.successThreshold ∧ s.failureCount = 0

/-- The time of opening is a reading of the clock that lies in the past. -/
def OpenedInPast (now : Nat) (s : CircuitBreaker) : Prop := ∀ openedAt, s.openedAt = some openedAt → openedAt ≤ now

/-- An open breaker lets a request through as soon as its timeout is over. -/
def CanLeaveOpen (config : CircuitBreakerConfig) (now : Nat) (s : CircuitBreaker) : Prop :=
  s.state = .«open» → ∃ openedAt ≤ now, s.openedAt = some openedAt ∧
    ∀ t, openedAt + config.timeout ≤ t →
      (s.isRequestAllowed config t).1 = true ∧ (s.isRequestAllowed config t).2.state = .halfOpen

variable {config : CircuitBreakerConfig} {s s' : CircuitBreaker} {now : Nat} {op : BreakerOp}

theorem WellFormed.fresh (hf : 0 < config.failureThreshold) : WellFormed config {} where
  closed := fun _ => ⟨hf, rfl, rfl⟩
  opened := by intro h; cases h
  halfOpen := by intro h; cases h

/-! ## One state at a time -/

theorem wellFormed_of_closed (hs : s.state = .closed) (hf : s.failureCount < config.failureThreshold)
    (hsuccess : s.successCount = 0) (ho : s.openedAt = none) : s.WellFormed config where
  closed := fun _ => ⟨hf, hsuccess, ho⟩
  opened := by intro h; rw [hs] at h; cases h
  halfOpen := by intro h; rw [hs] at h; cases h

theorem wellFormed_of_open (hs : s.state = .«open») (ho : s.openedAt.isSome = true)
    (hsuccess : s.successCount = 0) : s.WellFormed config where
  closed := by intro h; rw [hs] at h; cases h
  opened := fun _ => ⟨ho, hsuccess⟩
  halfOpen := by intro h; rw [hs] at h; cases h

theorem wellFormed_of_halfOpen (hs : s.state = .halfOpen) (ho : s.openedAt.isSome = true)
    (hsuccess : s.successCount < config.successThreshold) (hf : s.failureCount = 0) :
    s.WellFormed config where
  closed := by intro h; rw [hs] at h; cases h
  opened := by intro h; rw [hs] at h; cases h
  halfOpen := fun _ => ⟨ho, hsuccess, hf⟩

theorem WellFormed.step (hf : 0 < config.failureThreshold) (hn : 0 < config.successThreshold)
    (hs : s.WellFormed config) (h : BreakerStep config s now op s') : s'.WellFormed config := by
  cases h with
  | pass | refuse | ignore => exact hs
  | probe hopen ho =>
      have hopened := hs.opened hopen
      exact wellFormed_of_halfOpen rfl hopened.1 hn rfl
  | succeed hc =>
      obtain ⟨-, hsuccess, ho⟩ := hs.closed hc
      exact wellFormed_of_closed hc hf hsuccess ho
  | recover => exact wellFormed_of_closed rfl hf rfl rfl
  | progress hhalf hlt =>
      obtain ⟨ho, -, hfailures⟩ := hs.halfOpen hhalf
      exact wellFormed_of_halfOpen hhalf ho (UInt32.not_le.mp hlt) hfailures
  | trip hc =>
      -- `record_failure` does not write the success count here: it is the closed state's zero
      obtain ⟨-, hsuccess, -⟩ := hs.closed hc
      exact wellFormed_of_open rfl rfl hsuccess
  | fail hc hlt =>
      obtain ⟨-, hsuccess, ho⟩ := hs.closed hc
      exact wellFormed_of_closed hc (UInt32.not_le.mp hlt) hsuccess ho
  | reopen => exact wellFormed_of_open rfl rfl rfl
  | track hopen =>
      obtain ⟨ho, hsuccess⟩ := hs.opened hopen
      exact wellFormed_of_open hopen ho hsuccess
  | reset => exact wellFormed_of_closed rfl hf rfl rfl

theorem OpenedInPast.step (hs : s.OpenedInPast now) (h : BreakerStep config s now op s') :
    s'.OpenedInPast now := by
  intro openedAt ho
  cases h with
  | pass | refuse | ignore | probe | succeed | progress | fail | track => exact hs openedAt ho
  | recover | reset => cases ho
  | trip | reopen => cases ho; exact le_refl _

theorem OpenedInPast.later {later : Nat} (hs : s.OpenedInPast now) (h : now ≤ later) :
    s.OpenedInPast later :=
  fun openedAt ho => Nat.le_trans (hs openedAt ho) h

theorem WellFormed.canLeaveOpen (hs : s.WellFormed config) (hpast : s.OpenedInPast now) :
    s.CanLeaveOpen config now := by
  intro hopen
  obtain ⟨openedAt, ho⟩ := Option.isSome_iff_exists.mp (hs.opened hopen).1
  exact ⟨openedAt, hpast openedAt ho, ho, fun t ht => BreakerCalls.probed hopen ho ht⟩

end CircuitBreaker

/-! ## Runs -/

namespace BreakerCalls

variable {config : CircuitBreakerConfig} {c c' : Clocked BreakerCalls} {e : Nat × BreakerEvent}

structure Sound (config : CircuitBreakerConfig) (c : Clocked BreakerCalls) : Prop where
  fields : c.state.breaker.WellFormed config
  past : c.state.breaker.OpenedInPast c.now

theorem Sound.fresh (hf : 0 < config.failureThreshold) : Sound config fresh where
  fields := .fresh hf
  past := by intro openedAt ho; cases ho

theorem Sound.step (hf : 0 < config.failureThreshold) (hn : 0 < config.successThreshold)
    (h : Sound config c) (hs : BreakerCalls.step config c e = some c') : Sound config c' := by
  obtain ⟨hle, hcall, hnow⟩ := clocked_eq_some.mp hs
  have hpast := h.past.later hle
  have hbreaker := callStep_breaker hcall
  cases hop : e.2.op c.state with
  | none =>
      rw [hop] at hbreaker
      exact ⟨hbreaker ▸ h.fields, by rw [hnow]; exact hbreaker ▸ hpast⟩
  | some op =>
      rw [hop] at hbreaker
      have hb : BreakerStep config c.state.breaker e.1 op c'.state.breaker :=
        hbreaker ▸ CircuitBreaker.apply_step
      exact ⟨h.fields.step hf hn hb, by rw [hnow]; exact hpast.step hb⟩

end BreakerCalls

end NetworkSystem
