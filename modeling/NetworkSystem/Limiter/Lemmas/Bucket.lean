import NetworkSystem.Limiter.RateLimiter
import Mathlib.Algebra.Order.BigOperators.Group.List
import Mathlib.Tactic.Linarith
import Mathlib.Tactic.Positivity
import Mathlib.Tactic.Ring

/-!
# Token buckets over the rationals

A bucket is read only through its refill, and refills compose: on the way to a later one an earlier one
makes no difference, the clamp at the capacity included. What a window grants is bounded by what the bucket
holds when the window begins and what is refilled in it.
-/

namespace NetworkSystem

open Steps

/-- Tokens for each nanosecond. -/
def RateLimiterConfig.rate (config : RateLimiterConfig) : ℚ :=
  config.refillAmount.toNat / config.refillInterval

theorem RateLimiterConfig.rate_nonneg (config : RateLimiterConfig) : 0 ≤ config.rate := by
  unfold rate
  positivity

namespace TokenBucket

variable {config : RateLimiterConfig} {bucket : TokenBucket ℚ} {now t u : Nat}

/-! ## Refills -/

@[simp]
theorem refillTokens_lastRefill : (bucket.refillTokens config now).lastRefill = now := rfl

theorem refillTokens_tokens (hi : 0 < config.refillInterval) :
    (bucket.refillTokens config now).tokens =
      min (bucket.tokens + (now - bucket.lastRefill : Nat) * config.rate) config.capacity.toNat := by
  have hinterval : (config.refillInterval : ℚ) ≠ 0 := by
    rw [Nat.cast_ne_zero]
    omega
  have hsecs : (config.refillInterval : ℚ) / 1000000000 ≠ 0 := div_ne_zero hinterval (by norm_num)
  have hintervals : ((now - bucket.lastRefill : Nat) : ℚ) / 1000000000 / (config.refillInterval / 1000000000) =
      (now - bucket.lastRefill : Nat) / config.refillInterval := by
    rw [div_eq_div_iff hsecs hinterval]
    ring
  have hrefill : (bucket.refillTokens config now).tokens = min (bucket.tokens +
      ((now - bucket.lastRefill : Nat) : ℚ) / 1000000000 / (config.refillInterval / 1000000000) *
        config.refillAmount.toNat) config.capacity.toNat := rfl
  rw [hrefill, hintervals, RateLimiterConfig.rate]
  congr 2
  ring

/-- Splitting a refill makes no difference. -/
theorem refillTokens_refillTokens (hi : 0 < config.refillInterval) (ht : bucket.lastRefill ≤ t)
    (hu : t ≤ u) : (bucket.refillTokens config t).refillTokens config u = bucket.refillTokens config u := by
  have hrate := config.rate_nonneg
  have hsplit : ((u - bucket.lastRefill : Nat) : ℚ) = (t - bucket.lastRefill : Nat) + (u - t : Nat) := by
    rw [← Nat.cast_add]
    congr 1
    omega
  have hadd : (config.capacity.toNat : ℚ) ≤ config.capacity.toNat + (u - t : Nat) * config.rate := by
    have : 0 ≤ ((u - t : Nat) : ℚ) * config.rate := by positivity
    linarith
  have htokens : ((bucket.refillTokens config t).refillTokens config u).tokens =
      (bucket.refillTokens config u).tokens := by
    rw [refillTokens_tokens hi, refillTokens_tokens hi, refillTokens_tokens hi, refillTokens_lastRefill,
      ← min_add_add_right, min_assoc, min_eq_right hadd, hsplit, add_mul, add_assoc]
  exact TokenBucket.ext htokens rfl

/-- What a call returns and leaves behind depends on the bucket only through its refill. -/
theorem apply_congr {other : TokenBucket ℚ} {op : LimiterOp}
    (h : bucket.refillTokens config now = other.refillTokens config now) :
    bucket.apply config now op = other.apply config now op := by
  cases op with
  | tryAcquire tokens => simp only [apply, tryAcquire, h]
  | availableTokens => simp only [apply, availableTokens, h]
  | reset => rfl

/-! ## Steps -/

/-- The tokens are between zero and the capacity, and the last refill is not ahead of the clock. -/
structure WithinCapacity (config : RateLimiterConfig) (now : Nat) (bucket : TokenBucket ℚ) : Prop where
  nonneg : 0 ≤ bucket.tokens
  le_capacity : bucket.tokens ≤ config.capacity.toNat
  past : bucket.lastRefill ≤ now

inductive BucketStep (config : RateLimiterConfig) (bucket : TokenBucket ℚ) (now : Nat) :
    LimiterOp → LimiterReply → TokenBucket ℚ → Prop
  | grant {tokens : UInt64} (h : (tokens.toNat : ℚ) ≤ (bucket.refillTokens config now).tokens) :
      BucketStep config bucket now (.tryAcquire tokens) (.acquired true)
        ⟨(bucket.refillTokens config now).tokens - tokens.toNat, now⟩
  | refuse {tokens : UInt64} (h : (bucket.refillTokens config now).tokens < tokens.toNat) :
      BucketStep config bucket now (.tryAcquire tokens) (.acquired false) (bucket.refillTokens config now)
  | count {tokens : UInt64} :
      BucketStep config bucket now .availableTokens (.available tokens) (bucket.refillTokens config now)
  | reset : BucketStep config bucket now .reset .done ⟨config.capacity.toNat, now⟩

theorem apply_step {op : LimiterOp} :
    BucketStep config bucket now op (bucket.apply config now op).1 (bucket.apply config now op).2 := by
  cases op with
  | tryAcquire tokens =>
      by_cases h : (tokens.toNat : ℚ) ≤ (bucket.refillTokens config now).tokens
      · have hge : TokenCount.ge (bucket.refillTokens config now).tokens (TokenCount.ofU64 tokens) = true :=
          decide_eq_true h
        simp only [apply, tryAcquire, hge, ↓reduceIte]
        exact .grant h
      · have hge : TokenCount.ge (bucket.refillTokens config now).tokens (TokenCount.ofU64 tokens) = false :=
          decide_eq_false h
        simp only [apply, tryAcquire, hge, Bool.false_eq_true, ↓reduceIte]
        exact .refuse (not_le.mp h)
  | availableTokens => exact .count
  | reset => exact .reset

theorem step_eq_some {c c' : Clocked (TokenBucket ℚ)} {e : Nat × LimiterOp × LimiterReply} :
    step config c e = some c' ↔
      c.now ≤ e.1 ∧ c.state.apply config e.1 e.2.1 = (e.2.2, c'.state) ∧ c'.now = e.1 := by
  rw [step, clocked_eq_some, answered_eq_some, Option.some.injEq]

theorem step_bucket {c c' : Clocked (TokenBucket ℚ)} {e : Nat × LimiterOp × LimiterReply}
    (h : step config c e = some c') :
    c.now ≤ e.1 ∧ c'.now = e.1 ∧ BucketStep config c.state e.1 e.2.1 e.2.2 c'.state := by
  obtain ⟨hle, happly, hnow⟩ := step_eq_some.mp h
  have hb : BucketStep config c.state e.1 e.2.1 _ _ := apply_step
  rw [happly] at hb
  exact ⟨hle, hnow, hb⟩

theorem WithinCapacity.refill (h : WithinCapacity config now bucket) (hi : 0 < config.refillInterval) :
    WithinCapacity config t (bucket.refillTokens config t) where
  nonneg := by
    have hrate := config.rate_nonneg
    have htokens := h.nonneg
    rw [refillTokens_tokens hi]
    positivity
  le_capacity := by
    rw [refillTokens_tokens hi]
    exact min_le_right _ _
  past := le_refl t

theorem WithinCapacity.step {op : LimiterOp} {reply : LimiterReply} {bucket' : TokenBucket ℚ}
    (h : WithinCapacity config now bucket) (hi : 0 < config.refillInterval)
    (hs : BucketStep config bucket t op reply bucket') : WithinCapacity config t bucket' := by
  have hrefill : WithinCapacity config t (bucket.refillTokens config t) := h.refill hi
  cases hs with
  | refuse | count => exact hrefill
  | grant hle =>
      refine ⟨sub_nonneg.mpr hle, ?_, le_refl t⟩
      exact (sub_le_self _ (Nat.cast_nonneg _)).trans hrefill.le_capacity
  | reset => exact ⟨Nat.cast_nonneg _, le_refl _, le_refl t⟩

theorem withinCapacity_fresh (config : RateLimiterConfig) (start : Nat) :
    WithinCapacity config start (fresh ℚ config start).state where
  nonneg := Nat.cast_nonneg _
  le_capacity := le_refl _
  past := le_refl start

/-! ## What a window grants -/

/-- The tokens that the call grants, if it is made in the window from `s` to `t`. -/
def granted (s t : Nat) : Nat × LimiterOp × LimiterReply → Nat
  | (u, .tryAcquire tokens, .acquired true) => if s ≤ u ∧ u ≤ t then tokens.toNat else 0
  | _ => 0

def grantedIn (s t : Nat) (es : List (Nat × LimiterOp × LimiterReply)) : Nat := (es.map (granted s t)).sum

variable {s : Nat} {e : Nat × LimiterOp × LimiterReply} {es : List (Nat × LimiterOp × LimiterReply)}
  {c c' : Clocked (TokenBucket ℚ)}

@[simp]
theorem grantedIn_cons : grantedIn s t (e :: es) = granted s t e + grantedIn s t es := by
  simp [grantedIn]

theorem granted_eq_zero (h : e.1 < s ∨ t < e.1) : granted s t e = 0 := by
  obtain ⟨u, op, reply⟩ := e
  unfold granted
  split
  · rename_i he
    cases he
    rw [if_neg (by omega)]
  · rfl

theorem grantedIn_eq_zero (h : ∀ e ∈ es, t < e.1) : grantedIn s t es = 0 := by
  induction es with
  | nil => rfl
  | cons e es ih =>
      rw [grantedIn_cons, granted_eq_zero (Or.inr (h e List.mem_cons_self)),
        ih fun f hf => h f (List.mem_cons_of_mem e hf)]

theorem BucketStep.lastRefill {op : LimiterOp} {reply : LimiterReply} {bucket' : TokenBucket ℚ}
    (hs : BucketStep config bucket now op reply bucket') : bucket'.lastRefill = now := by
  cases hs <;> rfl

/-- What a call grants it takes out of the refilled bucket. -/
theorem BucketStep.granted_le {bucket' : TokenBucket ℚ} (hs : BucketStep config bucket e.1 e.2.1 e.2.2 bucket')
    (hop : e.2.1 ≠ .reset) :
    granted s t e + bucket'.tokens ≤ (bucket.refillTokens config e.1).tokens := by
  obtain ⟨u, op, reply⟩ := e
  cases hs with
  | @grant tokens h =>
      have htokens : (0 : ℚ) ≤ tokens.toNat := Nat.cast_nonneg _
      simp only [granted]
      split
      · linarith
      · push_cast
        linarith
  | refuse | count => simp [granted]
  | reset => exact absurd rfl hop

/-- Until `t` a run without a reset grants at most what the bucket holds and what is refilled until then. -/
theorem granted_until (hi : 0 < config.refillInterval) (hc : WithinCapacity config c.now c.state)
    (hreset : ∀ e ∈ es, e.1 ≤ t → e.2.1 ≠ .reset) (hr : run (step config) c es = some c') :
    (grantedIn s t es : ℚ) ≤ c.state.tokens + (t - c.state.lastRefill : Nat) * config.rate := by
  have hrate := config.rate_nonneg
  have htokens := hc.nonneg
  induction es generalizing c with
  | nil =>
      simp only [grantedIn, List.map_nil, List.sum_nil, Nat.cast_zero]
      positivity
  | cons e es ih =>
      obtain ⟨c₁, hs, hr₁⟩ := run_cons_eq_some.mp hr
      obtain ⟨hle, hnow, hb⟩ := step_bucket hs
      by_cases ht : e.1 ≤ t
      · have hc₁ : WithinCapacity config c₁.now c₁.state := by
          rw [hnow]
          exact hc.step hi hb
        have hrest := ih hc₁ (fun f hf => hreset f (List.mem_cons_of_mem e hf)) hr₁ hc₁.nonneg
        have hfirst := hb.granted_le (s := s) (t := t) (hreset e List.mem_cons_self ht)
        have hrefill : (c.state.refillTokens config e.1).tokens ≤
            c.state.tokens + (e.1 - c.state.lastRefill : Nat) * config.rate := by
          rw [refillTokens_tokens hi]
          exact min_le_left _ _
        have hsplit : ((t - c.state.lastRefill : Nat) : ℚ) =
            (e.1 - c.state.lastRefill : Nat) + (t - e.1 : Nat) := by
          have hpast := hc.past
          rw [← Nat.cast_add]
          congr 1
          omega
        rw [hb.lastRefill] at hrest
        rw [grantedIn_cons, hsplit, add_mul]
        push_cast
        linarith
      · have hlate : ∀ f ∈ e :: es, t < f.1 := by
          intro f hf
          have hfrom := clocked_run_le hr₁
          rcases List.mem_cons.mp hf with rfl | hf
          · omega
          · have := hfrom f hf
            omega
        rw [grantedIn_eq_zero hlate, Nat.cast_zero]
        positivity

/-- A run goes on alike from the bucket refilled at a reading before its first event. -/
theorem run_refilled (hi : 0 < config.refillInterval) (hpast : c.state.lastRefill ≤ s) (hs : s ≤ e.1)
    (hr : run (step config) c (e :: es) = some c') :
    run (step config) ⟨s, c.state.refillTokens config s⟩ (e :: es) = some c' := by
  obtain ⟨c₁, hstep, hr₁⟩ := run_cons_eq_some.mp hr
  obtain ⟨-, happly, hnow⟩ := step_eq_some.mp hstep
  refine run_cons_eq_some.mpr ⟨c₁, step_eq_some.mpr ⟨hs, ?_, hnow⟩, hr₁⟩
  rw [← happly]
  exact apply_congr (refillTokens_refillTokens hi hpast hs)

/-- A window in which nothing is reset grants at most the capacity and what is refilled in it. -/
theorem granted_window (hi : 0 < config.refillInterval) (hc : WithinCapacity config c.now c.state)
    (hreset : ∀ e ∈ es, s ≤ e.1 → e.1 ≤ t → e.2.1 ≠ .reset) (hr : run (step config) c es = some c') :
    (grantedIn s t es : ℚ) ≤ config.capacity.toNat + (t - s : Nat) * config.rate := by
  have hrate := config.rate_nonneg
  induction es generalizing c with
  | nil =>
      simp only [grantedIn, List.map_nil, List.sum_nil, Nat.cast_zero]
      positivity
  | cons e es ih =>
      by_cases hbefore : e.1 < s
      · obtain ⟨c₁, hs, hr₁⟩ := run_cons_eq_some.mp hr
        obtain ⟨-, hnow, hb⟩ := step_bucket hs
        have hc₁ : WithinCapacity config c₁.now c₁.state := by
          rw [hnow]
          exact hc.step hi hb
        rw [grantedIn_cons, granted_eq_zero (Or.inl hbefore), Nat.zero_add]
        exact ih hc₁ (fun f hf => hreset f (List.mem_cons_of_mem e hf)) hr₁
      · obtain ⟨c₁, hs, hr₁⟩ := run_cons_eq_some.mp hr
        have hfrom : ∀ f ∈ e :: es, s ≤ f.1 := by
          obtain ⟨-, hnow, -⟩ := step_bucket hs
          refine List.forall_mem_cons.mpr ⟨by omega, ?_⟩
          intro f hf
          have := clocked_run_le hr₁ f hf
          omega
        have hnow := clocked_run_le hr e List.mem_cons_self
        have hfull := hc.refill (t := max c.now s) hi
        have hrun := run_refilled hi (hc.past.trans (le_max_left c.now s)) (max_le hnow (by omega)) hr
        have hwithin := granted_until (s := s) hi hfull (fun f hf => hreset f hf (hfrom f hf)) hrun
        have hwindow : ((t - max c.now s : Nat) : ℚ) * config.rate ≤ (t - s : Nat) * config.rate := by
          refine mul_le_mul_of_nonneg_right ?_ hrate
          exact Nat.cast_le.mpr (by omega)
        have hcapacity := hfull.le_capacity
        rw [refillTokens_lastRefill] at hwithin
        linarith

/-! ## Polling -/

/-- A call that only looks: `available_tokens`, or a `try_acquire` that fails. -/
def polls : Nat × LimiterOp × LimiterReply → Bool
  | (_, .availableTokens, _) => true
  | (_, .tryAcquire _, .acquired false) => true
  | _ => false

/-- Two buckets that every refill from now on makes equal, the second not ahead of the first. -/
structure RefillsAlike (config : RateLimiterConfig) (c d : Clocked (TokenBucket ℚ)) : Prop where
  behind : d.now ≤ c.now
  past : c.state.lastRefill ≤ c.now
  alike : ∀ t, c.now ≤ t → c.state.refillTokens config t = d.state.refillTokens config t

variable {d : Clocked (TokenBucket ℚ)}

theorem RefillsAlike.refl (h : c.state.lastRefill ≤ c.now) : RefillsAlike config c c :=
  ⟨le_refl _, h, fun _ _ => rfl⟩

theorem BucketStep.of_polls {bucket' : TokenBucket ℚ} (hb : BucketStep config bucket e.1 e.2.1 e.2.2 bucket')
    (he : polls e = true) : bucket' = bucket.refillTokens config e.1 := by
  obtain ⟨u, op, reply⟩ := e
  cases hb with
  | grant | reset => simp [polls] at he
  | refuse | count => rfl

theorem RefillsAlike.polled (h : RefillsAlike config c d) (hi : 0 < config.refillInterval)
    (he : polls e = true) (hs : step config c e = some c') : RefillsAlike config c' d := by
  obtain ⟨hle, hnow, hb⟩ := step_bucket hs
  have hbehind := h.behind
  refine ⟨by omega, (hb.lastRefill.trans hnow.symm).le, ?_⟩
  intro t ht
  rw [hnow] at ht
  rw [hb.of_polls he, refillTokens_refillTokens hi (h.past.trans hle) ht]
  exact h.alike t (hle.trans ht)

theorem RefillsAlike.step (h : RefillsAlike config c d) (hs : TokenBucket.step config c e = some c') :
    ∃ d', TokenBucket.step config d e = some d' ∧ RefillsAlike config c' d' := by
  obtain ⟨hle, happly, hnow⟩ := step_eq_some.mp hs
  obtain ⟨-, -, hb⟩ := step_bucket hs
  refine ⟨c', step_eq_some.mpr ⟨h.behind.trans hle, ?_, hnow⟩, .refl (hb.lastRefill.trans hnow.symm).le⟩
  rw [← happly]
  exact (apply_congr (h.alike e.1 hle)).symm

end TokenBucket

end NetworkSystem
