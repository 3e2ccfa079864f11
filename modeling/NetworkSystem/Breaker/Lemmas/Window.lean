import NetworkSystem.Breaker.Lemmas.Step

/-!
# The failures that a count stands for

`failure_count` goes back to zero only when the gap between two failures is longer than the window, so that
a count can stand for failures over a longer time. `Watched` keeps the history of the failures beside the
breaker and relates the count to it.
-/

namespace NetworkSystem

open Steps

/-- Where the predicate holds of an element of the list it holds of those before: it holds of more than
`k` elements if and only if it holds of the one at `k`. -/
theorem lt_countP_iff {α : Type} {p : α → Bool} {k : Nat} {l : List α}
    (hp : l.Pairwise fun x y => p y = true → p x = true) :
    k < l.countP p ↔ ∃ x, l[k]? = some x ∧ p x = true := by
  induction l generalizing k with
  | nil => simp
  | cons a l ih =>
      obtain ⟨ha, hl⟩ := List.pairwise_cons.mp hp
      cases hpa : p a with
      | false =>
          have hnone : ∀ x ∈ l, ¬ p x = true := fun x hx h => absurd (ha x hx h) (by simp [hpa])
          rw [List.countP_cons_of_neg (by simp [hpa]), List.countP_eq_zero.mpr hnone]
          constructor
          · intro h
            exact absurd h (Nat.not_lt_zero k)
          · rintro ⟨x, hx, hpx⟩
            rcases List.mem_cons.mp (List.mem_of_getElem? hx) with rfl | hx
            · exact absurd hpx (by simp [hpa])
            · exact absurd hpx (hnone x hx)
      | true =>
          rw [List.countP_cons_of_pos hpa]
          cases k with
          | zero => simp [hpa]
          | succ k => rw [Nat.add_lt_add_iff_right, ih hl, List.getElem?_cons_succ]

/-! ## The history beside the breaker -/

structure Watched where
  breaker : CircuitBreaker := {}
  /-- When `record_failure` was called while the breaker was closed, since the last `record_success`; the
  latest call first. -/
  failures : List Nat := []
  /-- The failure from which `failure_count` counts on. -/
  first : Nat := 0
  deriving Repr, DecidableEq

namespace Watched

def watch (config : CircuitBreakerConfig) (s : Watched) (now : Nat) (op : BreakerOp) : Watched :=
  { breaker := s.breaker.apply config now op
    failures :=
      match op with
      | .recordSuccess => []
      | .recordFailure => if s.breaker.state = .closed then now :: s.failures else s.failures
      | _ => s.failures
    first :=
      if op = .recordFailure ∧ s.breaker.windowedCount config now = 0 then now else s.first }

def step (config : CircuitBreakerConfig) : Clocked Watched → Nat × BreakerOp → Option (Clocked Watched) :=
  clocked fun s now op => some (s.watch config now op)

def fresh : Clocked Watched := ⟨0, {}⟩

/-- When the event opens the closed breaker, the threshold was reached by failures within the window. -/
def OpensInWindow (config : CircuitBreakerConfig) (s : Clocked Watched) (e : Nat × BreakerOp) : Prop :=
  s.state.breaker.state = .closed → (s.state.watch config e.1 e.2).breaker.state = .«open» →
    config.failureThreshold.toNat ≤
      (s.state.watch config e.1 e.2).failures.countP fun t => e.1 ≤ t + config.windowSize

/-- When the event is the failure that fills the count, the failures that the count stands for began at most
the window before. -/
def CountsInWindow (config : CircuitBreakerConfig) (s : Clocked Watched) (e : Nat × BreakerOp) : Prop :=
  s.state.breaker.state = .closed → e.2 = .recordFailure →
    config.failureThreshold ≤ s.state.breaker.windowedCount config e.1 + 1 →
      s.state.breaker.windowedCount config e.1 = 0 ∨ e.1 ≤ s.state.first + config.windowSize

instance (config : CircuitBreakerConfig) (s : Clocked Watched) (e : Nat × BreakerOp) :
    Decidable (OpensInWindow config s e) :=
  inferInstanceAs (Decidable (_ → _ → _))

instance (config : CircuitBreakerConfig) (s : Clocked Watched) (e : Nat × BreakerOp) :
    Decidable (CountsInWindow config s e) :=
  inferInstanceAs (Decidable (_ → _ → _ → _))

/-! ## What the count stands for -/

/-- The `failure_count` latest failures are those that the count stands for. -/
structure Counted (config : CircuitBreakerConfig) (now : Nat) (s : Watched) : Prop where
  below : s.breaker.BelowThreshold config
  ordered : s.failures.Pairwise (· ≥ ·)
  past : ∀ t ∈ s.failures, t ≤ now
  counted : s.breaker.state = .closed → ∀ k, s.breaker.failureCount.toNat = k + 1 →
    s.failures[k]? = some s.first

variable {config : CircuitBreakerConfig} {s : Watched} {now : Nat} {op : BreakerOp}

theorem Counted.fresh (hn : 0 < config.failureThreshold) : Counted config 0 {} where
  below _ := hn
  ordered := List.Pairwise.nil
  past := nofun
  counted _ _ := nofun

theorem watch_failures : (s.watch config now op).failures = [] ∨
    (s.watch config now op).failures = s.failures ∨
      (s.watch config now op).failures = now :: s.failures := by
  cases op with
  | isRequestAllowed | reset => exact Or.inr (Or.inl rfl)
  | recordSuccess => exact Or.inl rfl
  | recordFailure =>
      simp only [watch]
      split
      · exact Or.inr (Or.inr rfl)
      · exact Or.inr (Or.inl rfl)

theorem watch_recordFailure (hc : s.breaker.state = .closed) :
    (s.watch config now .recordFailure).failures = now :: s.failures :=
  if_pos hc

theorem windowedCount_of_ne_zero {b : CircuitBreaker} (h : b.windowedCount config now ≠ 0) :
    b.windowedCount config now = b.failureCount := by
  unfold CircuitBreaker.windowedCount at h ⊢
  split
  · rename_i he
    simp [he] at h
  · rfl

theorem Counted.windowed (h : Counted config now s) (hc : s.breaker.state = .closed) {t k : Nat}
    (hk : (s.breaker.windowedCount config t).toNat = k + 1) : s.failures[k]? = some s.first := by
  refine h.counted hc k ?_
  rw [← windowedCount_of_ne_zero, hk]
  intro h₀
  rw [h₀] at hk
  cases hk

theorem Counted.watch {t : Nat} (hn : 0 < config.failureThreshold) (h : Counted config t s)
    (hle : t ≤ now) : Counted config now (s.watch config now op) := by
  have hpast : ∀ u ∈ s.failures, u ≤ now := fun u hu => Nat.le_trans (h.past u hu) hle
  have hb : BreakerStep config s.breaker now op (s.watch config now op).breaker :=
    CircuitBreaker.apply_step
  have hfailures : (s.watch config now op).failures = [] ∨ (s.watch config now op).failures = s.failures ∨
      (s.watch config now op).failures = now :: s.failures := watch_failures
  refine ⟨h.below.step hn hb, ?_, ?_, ?_⟩
  · rcases hfailures with hf | hf | hf <;> rw [hf]
    · exact List.Pairwise.nil
    · exact h.ordered
    · exact List.pairwise_cons.mpr ⟨hpast, h.ordered⟩
  · rcases hfailures with hf | hf | hf <;> rw [hf]
    · nofun
    · exact hpast
    · exact List.forall_mem_cons.mpr ⟨le_refl now, hpast⟩
  · intro hc k hk
    generalize hb' : (s.watch config now op).breaker = b' at hb hc hk
    cases hb with
    | pass => exact h.counted hc k hk
    | probe | trip | reopen => cases hc
    | refuse h' | progress h' | ignore h' | track h' => exact absurd (h'.symm.trans hc) nofun
    | succeed | recover | reset => cases hk
    | fail hc₀ hlt =>
        have hlow : s.breaker.windowedCount config now < config.failureThreshold :=
          h.below.windowedCount_lt hn hc₀
        have hsucc := toNat_add_one_of_lt hlow
        simp only [Watched.watch, hc₀, ↓reduceIte, true_and]
        cases k with
        | zero =>
            have h₀ : s.breaker.windowedCount config now = 0 := by
              apply UInt32.toNat_inj.mp
              rw [UInt32.toNat_zero]
              simp only at hk
              omega
            simp [h₀]
        | succ k =>
            have hk' : (s.breaker.windowedCount config now).toNat = k + 1 := by
              simp only at hk
              omega
            have h₀ : s.breaker.windowedCount config now ≠ 0 := by
              intro h₀
              rw [h₀] at hk'
              cases hk'
            rw [if_neg h₀, List.getElem?_cons_succ]
            exact h.windowed hc₀ hk'

theorem Counted.step {c c' : Clocked Watched} {e : Nat × BreakerOp} (hn : 0 < config.failureThreshold)
    (h : Counted config c.now c.state) (hs : step config c e = some c') :
    Counted config c'.now c'.state := by
  obtain ⟨hle, hs, hnow⟩ := clocked_eq_some.mp hs
  rw [Option.some.injEq] at hs
  rw [← hs, hnow]
  exact h.watch hn hle

/-- A failure that fills the count opens the breaker on as many failures as the count stands for; all of
them are in the window if and only if the first of them is. -/
theorem Counted.in_window_iff (hn : 0 < config.failureThreshold) {t : Nat} (h : Counted config t s)
    (hc : s.breaker.state = .closed)
    (hfull : config.failureThreshold ≤ s.breaker.windowedCount config now + 1) :
    (config.failureThreshold.toNat ≤
        (now :: s.failures).countP fun t => decide (now ≤ t + config.windowSize)) ↔
      s.breaker.windowedCount config now = 0 ∨ now ≤ s.first + config.windowSize := by
  have hlt : s.breaker.windowedCount config now < config.failureThreshold :=
    h.below.windowedCount_lt hn hc
  have hthreshold : config.failureThreshold.toNat = (s.breaker.windowedCount config now).toNat + 1 := by
    have h₁ := UInt32.le_iff_toNat_le.mp hfull
    have h₂ := UInt32.lt_iff_toNat_lt.mp hlt
    rw [toNat_add_one_of_lt hlt] at h₁
    omega
  have hlatest : decide (now ≤ now + config.windowSize) = true :=
    decide_eq_true (Nat.le_add_right _ _)
  rw [hthreshold, List.countP_cons_of_pos (p := fun t => decide (now ≤ t + config.windowSize)) hlatest,
    Nat.add_le_add_iff_right]
  cases hk : (s.breaker.windowedCount config now).toNat with
  | zero =>
      have h₀ : s.breaker.windowedCount config now = 0 := UInt32.toNat_inj.mp hk
      simp [h₀]
  | succ k =>
      have h₀ : s.breaker.windowedCount config now ≠ 0 := by
        intro h₀
        rw [h₀] at hk
        cases hk
      have hmono : s.failures.Pairwise fun x y => decide (now ≤ y + config.windowSize) = true →
          decide (now ≤ x + config.windowSize) = true := by
        refine h.ordered.imp ?_
        intro x y hxy hy
        have := of_decide_eq_true hy
        exact decide_eq_true (by omega)
      rw [Nat.succ_le_iff, lt_countP_iff hmono]
      constructor
      · rintro ⟨x, hx, hpx⟩
        rw [h.windowed hc hk, Option.some.injEq] at hx
        rw [hx]
        exact Or.inr (of_decide_eq_true hpx)
      · rintro (hz | hfirst)
        · exact absurd hz h₀
        · exact ⟨s.first, h.windowed hc hk, decide_eq_true hfirst⟩

theorem Counted.opens_iff {c : Clocked Watched} {e : Nat × BreakerOp} (hn : 0 < config.failureThreshold)
    (h : Counted config c.now c.state) : OpensInWindow config c e ↔ CountsInWindow config c e := by
  have hb : BreakerStep config c.state.breaker e.1 e.2 (c.state.watch config e.1 e.2).breaker :=
    CircuitBreaker.apply_step
  constructor
  · intro hopens hc hop hfull
    refine (h.in_window_iff hn hc hfull).mp ?_
    have hopened : (c.state.watch config e.1 e.2).breaker.state = .«open» := by
      generalize (c.state.watch config e.1 e.2).breaker = b' at hb
      rw [hop] at hb
      cases hb with
      | trip => rfl
      | fail _ hlt => exact absurd hfull hlt
      | reopen => rfl
      | track h' => exact h'
    have hcount := hopens hc hopened
    rwa [hop, watch_recordFailure hc] at hcount
  · intro hcounts hc hopened
    obtain ⟨hop, -⟩ := hb.opens (by rw [hc]; nofun) hopened
    have hfull : config.failureThreshold ≤ c.state.breaker.windowedCount config e.1 + 1 := by
      generalize (c.state.watch config e.1 e.2).breaker = b' at hb hopened
      rw [hop] at hb
      cases hb with
      | trip _ hle => exact hle
      | fail h' => exact absurd (h'.symm.trans hopened) nofun
      | reopen h' | track h' => exact absurd (h'.symm.trans hc) nofun
    rw [hop, watch_recordFailure hc]
    exact (h.in_window_iff hn hc hfull).mpr (hcounts hc hop hfull)

end Watched

end NetworkSystem
