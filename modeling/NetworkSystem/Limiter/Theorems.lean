import NetworkSystem.Limiter.Lemmas.Acquire
import NetworkSystem.Limiter.Lemmas.Bucket
import NetworkSystem.Limiter.Lemmas.Isolation
import NetworkSystem.Limiter.Lemmas.OneBucket

/-!
# What the rate limiters promise

A bucket keeps its bounds and the rate over every window, and polling it changes nothing for anyone else. Waiting
for tokens is honest while the rate is one that a wait can be computed from. A key of a limiter of many keys sees
nothing of what is done to other keys.
-/

namespace NetworkSystem

open Steps

/-! ## One bucket -/

/-- In every run the bucket stays between empty and full, and the calls made in a window from `s` to `t` in which
nothing is reset are granted at most the capacity and what is refilled from `s` to `t`. -/
theorem token_bucket_rate (config : RateLimiterConfig) (start : Nat)
    (es : List (Nat × LimiterOp × LimiterReply)) (c : Clocked (TokenBucket ℚ))
    (hi : 0 < config.refillInterval)
    (hr : run (TokenBucket.step config) (TokenBucket.fresh ℚ config start) es = some c) :
    Always (TokenBucket.step config)
      (fun (d : Clocked (TokenBucket ℚ)) => 0 ≤ d.state.tokens ∧ d.state.tokens ≤ config.capacity.toNat)
      (TokenBucket.fresh ℚ config start) es ∧
    ∀ s t, (∀ e ∈ es, s ≤ e.1 → e.1 ≤ t → e.2.1 ≠ .reset) →
      (TokenBucket.grantedIn s t es : ℚ) ≤ config.capacity.toNat +
        config.refillAmount.toNat * (t - s : Nat) / config.refillInterval := by
  have hfresh := TokenBucket.withinCapacity_fresh config start
  constructor
  · refine always_of_preserves (C := fun _ _ => True)
      (I := fun c => TokenBucket.WithinCapacity config c.now c.state) ?_ ?_ hfresh
      (fun _ _ _ _ _ _ => trivial)
    · intro c e c' hc _ hs
      obtain ⟨-, hnow, hb⟩ := TokenBucket.step_bucket hs
      rw [hnow]
      exact hc.step hi hb
    · exact fun c hc => ⟨hc.nonneg, hc.le_capacity⟩
  · intro s t hreset
    have hwindow := TokenBucket.granted_window hi hfresh hreset hr
    rw [RateLimiterConfig.rate] at hwindow
    calc (TokenBucket.grantedIn s t es : ℚ)
        ≤ config.capacity.toNat + (t - s : Nat) * (config.refillAmount.toNat / config.refillInterval) := hwindow
      _ = _ := by ring

/-- Two tokens at once, a failed attempt, a look at half time and the token refilled by then. -/
def twoPerSecond : List (Nat × LimiterOp × LimiterReply) :=
  [(0, .tryAcquire 2, .acquired true), (1, .tryAcquire 1, .acquired false),
    (500000000, .availableTokens, .available 1), (600000000, .tryAcquire 1, .acquired true)]

theorem token_bucket_rate_two_per_second :
    ∃ c, run (TokenBucket.step (.perSecond 2)) (TokenBucket.fresh ℚ (.perSecond 2) 0) twoPerSecond = some c ∧
      TokenBucket.grantedIn 1 600000000 twoPerSecond = 1 ∧
      (TokenBucket.grantedIn 1 600000000 twoPerSecond : ℚ) ≤ ((2 : UInt64).toNat : ℚ) +
        (2 : UInt64).toNat * (600000000 - 1 : Nat) / (1000000000 : Nat) := by
  have hrun : run (TokenBucket.step (.perSecond 2)) (TokenBucket.fresh ℚ (.perSecond 2) 0) twoPerSecond =
      some ⟨600000000, ⟨1 / 5, 600000000⟩⟩ := by
    decide +kernel
  refine ⟨_, hrun, rfl, ?_⟩
  exact (token_bucket_rate (.perSecond 2) 0 twoPerSecond _ (by decide) hrun).2 1 600000000 (by decide)

/-- Two runs are left the same calls at the same times by leaving out calls that only look, each of which gets
the reply it has in its run. Then what is left gets the same replies in both. -/
theorem polling_changes_nothing (config : RateLimiterConfig) (start : Nat)
    (es fs es' fs' : List (Nat × LimiterOp × LimiterReply)) (c d : Clocked (TokenBucket ℚ))
    (hi : 0 < config.refillInterval)
    (hes : run (TokenBucket.step config) (TokenBucket.fresh ℚ config start) es = some c)
    (hfs : run (TokenBucket.step config) (TokenBucket.fresh ℚ config start) fs = some d)
    (hes' : Without (fun e => TokenBucket.polls e = true) es es')
    (hfs' : Without (fun e => TokenBucket.polls e = true) fs fs')
    (hsame : es'.map asked = fs'.map asked) : es' = fs' := by
  have hfresh : TokenBucket.RefillsAlike config (TokenBucket.fresh ℚ config start)
    (TokenBucket.fresh ℚ config start) := .refl (le_refl start)
  have hrest : ∀ {gs gs' : List (Nat × LimiterOp × LimiterReply)} {c : Clocked (TokenBucket ℚ)},
      Without (fun e => TokenBucket.polls e = true) gs gs' →
      run (TokenBucket.step config) (TokenBucket.fresh ℚ config start) gs = some c →
        ∃ c', run (TokenBucket.step config) (TokenBucket.fresh ℚ config start) gs' = some c' := by
    intro gs gs' c hw hr
    obtain ⟨c', hr', -⟩ := run_without (R := TokenBucket.RefillsAlike config) (q := fun _ => True)
      (fun _ _ _ _ h he hs => h.polled hi he hs) (fun _ _ _ _ h _ hs => h.step hs) hw
      (fun _ _ => trivial) hfresh hr
    exact ⟨c', hr'⟩
  obtain ⟨c', hr⟩ := hrest hes' hes
  obtain ⟨d', hr'⟩ := hrest hfs' hfs
  exact run_replies_unique hsame hr hr'

/-- The last attempt without the polls before it. -/
def twoPerSecondUnpolled : List (Nat × LimiterOp × LimiterReply) :=
  [(0, .tryAcquire 2, .acquired true), (600000000, .tryAcquire 1, .acquired true)]

theorem polling_changes_nothing_two_per_second :
    ∃ c d, run (TokenBucket.step (.perSecond 2)) (TokenBucket.fresh ℚ (.perSecond 2) 0) twoPerSecond = some c ∧
      run (TokenBucket.step (.perSecond 2)) (TokenBucket.fresh ℚ (.perSecond 2) 0) twoPerSecondUnpolled = some d ∧
      twoPerSecond.filter (fun e => !TokenBucket.polls e) = twoPerSecondUnpolled := by
  have hrun : run (TokenBucket.step (.perSecond 2)) (TokenBucket.fresh ℚ (.perSecond 2) 0) twoPerSecond =
      some ⟨600000000, ⟨1 / 5, 600000000⟩⟩ := by
    decide +kernel
  have hunpolled : run (TokenBucket.step (.perSecond 2)) (TokenBucket.fresh ℚ (.perSecond 2) 0)
      twoPerSecondUnpolled = some ⟨600000000, ⟨1 / 5, 600000000⟩⟩ := by
    decide +kernel
  refine ⟨_, _, hrun, hunpolled, ?_⟩
  exact polling_changes_nothing (.perSecond 2) 0 twoPerSecond twoPerSecondUnpolled _ _ _ _ (by decide) hrun
    hunpolled (without_filter _ (by simp) _) (.keep _ (.keep _ .nil)) (by decide)

/-! ## Waiting for tokens -/

/-- Along every run under a clock that does not go back, with other calls on the limiter in between, the call
stays honest if and only if it never computes a sleep with a `refill_amount` that is zero as a `u32`. Only an
attempt that is granted its tokens takes any. The tokens are counted in any arithmetic. -/
theorem acquire_waits_honestly_iff {T : Type} [TokenCount T] (config : RateLimiterConfig) (tokens : UInt64)
    (timeout start : Nat) (es : List (Nat × AcquireEvent)) :
    (Always (Acquiring.step config tokens timeout) (Acquiring.Honest timeout) (Acquiring.fresh T config start) es ↔
      Along (Acquiring.step config tokens timeout) (Acquiring.PausesSafely config)
        (Acquiring.fresh T config start) es) ∧
    Along (Acquiring.step config tokens timeout) (Acquiring.TakesTokens config tokens timeout)
      (Acquiring.fresh T config start) es := by
  constructor
  · refine always_iff_along (I := Acquiring.Waits timeout) (fun c h => h.honest) ?_ ?_ ?_
      (Acquiring.Waits.fresh config timeout start)
    · exact fun c e c' h hs => h.honest_iff hs
    · exact fun c e c' h hsafe hs => h.step hsafe hs
    · exact fun c e _ hs => Acquiring.pausesSafely_of_none hs
  · exact fun _ e _ c _ _ => Acquiring.takesTokens c e

/-- A limiter of no requests per second, and one of `2 ^ 32` tokens a second that is asked for more than it
holds. -/
theorem acquire_divides_by_zero :
    (∃ c, run (Acquiring.step (.perSecond 0) 1 1000000000) (Acquiring.fresh ℚ (.perSecond 0) 0)
      [(0, .go), (0, .go), (0, .go), (0, .go)] = some c ∧ c.state.call = .panicked) ∧
    (∃ c, run (Acquiring.step { capacity := 1, refillAmount := 4294967296 } 2 1000000000)
        (Acquiring.fresh ℚ { capacity := 1, refillAmount := 4294967296 } 0)
        [(0, .go), (0, .go), (0, .go), (0, .go)] = some c ∧ c.state.call = .panicked) ∧
    ¬ Always (Acquiring.step (.perSecond 0) 1 1000000000) (Acquiring.Honest 1000000000)
      (Acquiring.fresh ℚ (.perSecond 0) 0) [(0, .go), (0, .go), (0, .go), (0, .go)] := by
  have hrun : run (Acquiring.step (.perSecond 0) 1 1000000000) (Acquiring.fresh ℚ (.perSecond 0) 0)
      [(0, .go), (0, .go), (0, .go), (0, .go)] = some ⟨0, ⟨⟨0, 0⟩, .panicked, some 0, [false]⟩⟩ := by
    decide +kernel
  have hlarge : run (Acquiring.step { capacity := 1, refillAmount := 4294967296 } 2 1000000000)
      (Acquiring.fresh ℚ { capacity := 1, refillAmount := 4294967296 } 0)
      [(0, .go), (0, .go), (0, .go), (0, .go)] = some ⟨0, ⟨⟨1, 0⟩, .panicked, some 0, [false]⟩⟩ := by
    decide +kernel
  refine ⟨⟨_, hrun, rfl⟩, ⟨_, hlarge, rfl⟩, fun h => ?_⟩
  exact (h.last hrun).no_panic rfl

/-- A token that is refilled while the call sleeps. -/
example : (run (Acquiring.step (.perSecond 1) 1 2000000000) (Acquiring.fresh ℚ (.perSecond 1) 0)
    [(0, .other (.tryAcquire 1)), (0, .go), (0, .go), (0, .go), (0, .go), (1000000000, .go),
      (1000000000, .go)]).map (·.state.call) = some (.returned (.ok true)) := by
  decide +kernel

/-! ## Many keys -/

/-- Every run stays a run, with the same replies, when the operations on other keys are left out. Where the key is
not removed all its operations are on one limiter, whichever of them saw it missing. The tokens are counted in
any arithmetic. -/
theorem keyed_limiter_isolates {K T : Type} [DecidableEq K] [TokenCount T] (config : RateLimiterConfig) (key : K)
    (es : List (Nat × KeyedEvent K × KeyedReply)) (c : Clocked (KeyedCalls K T))
    (hr : run (KeyedCalls.step config) (KeyedCalls.fresh K T) es = some c) :
    (∃ d, run (KeyedCalls.step config) (KeyedCalls.fresh K T) (es.filter fun e => e.2.1.concerns key) = some d) ∧
    ((∀ e ∈ es, e.2.1.removes key = false) →
      ∃ limiter, Always (KeyedCalls.step config)
        (fun (d : Clocked (KeyedCalls K T)) => ∀ a, d.state.Holds key a → a = limiter)
        (KeyedCalls.fresh K T) es) := by
  constructor
  · have hwithout := without_filter (p := fun (e : Nat × KeyedEvent K × KeyedReply) => e.2.1.concerns key = false)
      (fun e => e.2.1.concerns key) (fun e he => he) es
    obtain ⟨d, hd, -⟩ := run_without (R := KeyedCalls.Projects key) (q := fun e => e.2.1.concerns key = true)
      (fun c d e c' h he hs => h.skip he hs) (fun c d e c' h he hs => h.step he hs) hwithout
      (fun e he => (List.mem_filter.mp he).2) (.fresh key) hr
    exact ⟨d, hd⟩
  · intro hes
    exact KeyedCalls.one_limiter (fun a ha => (KeyedCalls.holds_fresh ha).elim) hes hr

/-- Two calls find a key missing, and another key is used in between; the second draws on what the first has
left. -/
def twoUsers : List (Nat × KeyedEvent String × KeyedReply) :=
  [(0, .tryAcquire "user1" 0 5, .running), (0, .tryAcquire "user1" 1 1, .running),
    (1, .step "user1" 0, .running), (1, .step "user1" 1, .running), (1, .tryAcquire "user2" 0 5, .running),
    (2, .step "user2" 0, .running), (2, .step "user1" 0, .acquired true), (3, .step "user2" 0, .acquired true),
    (3, .step "user1" 1, .acquired false)]

theorem keyed_limiter_isolates_two_users :
    ∃ d, run (KeyedCalls.step (.perSecond 5)) (KeyedCalls.fresh String ℚ)
      [(1, .tryAcquire "user2" 0 5, .running), (2, .step "user2" 0, .running),
        (3, .step "user2" 0, .acquired true)] = some d := by
  have hrun : (run (KeyedCalls.step (.perSecond 5)) (KeyedCalls.fresh String ℚ) twoUsers).isSome = true := by
    decide +kernel
  obtain ⟨c, hc⟩ := Option.isSome_iff_exists.mp hrun
  obtain ⟨d, hd⟩ := (keyed_limiter_isolates (.perSecond 5) "user2" twoUsers c hc).1
  exact ⟨d, hd⟩

/-- To a key that is not removed the limiter of many keys is one bucket that was full from the start: in every run the
attempts that `try_acquire` and `acquire` make for the key, by any tasks and with any other keys in use, and whichever
of them create its limiter, end as those of a single limiter do. So what the key is granted in a window from `s` to `t`
is at most the capacity and what is refilled from `s` to `t`. -/
theorem keyed_limiter_rate {K : Type} [DecidableEq K] (config : RateLimiterConfig) (key : K)
    (es : List (Nat × KeyedEvent K × KeyedReply)) (c : Clocked (KeyedCalls K ℚ)) (hi : 0 < config.refillInterval)
    (hr : run (KeyedCalls.step config) (KeyedCalls.fresh K ℚ) es = some c)
    (hkept : ∀ e ∈ es, e.2.1.removes key = false) :
    (∃ d, run (TokenBucket.step config) (TokenBucket.fresh ℚ config 0) (KeyedCalls.attempts ℚ config key es) =
      some d) ∧
    ∀ s t, (TokenBucket.grantedIn s t (KeyedCalls.attempts ℚ config key es) : ℚ) ≤ config.capacity.toNat +
      config.refillAmount.toNat * (t - s : Nat) / config.refillInterval := by
  obtain ⟨d, hd⟩ := KeyedCalls.attempts_run hi hkept hr
  refine ⟨⟨d, hd⟩, fun s t => ?_⟩
  have hwindow := TokenBucket.granted_window (s := s) (t := t) hi (TokenBucket.withinCapacity_fresh config 0)
    (fun e he _ _ => KeyedCalls.attempts_no_reset config key es e he) hd
  rw [RateLimiterConfig.rate] at hwindow
  calc (TokenBucket.grantedIn s t (KeyedCalls.attempts ℚ config key es) : ℚ)
      ≤ config.capacity.toNat + (t - s : Nat) * (config.refillAmount.toNat / config.refillInterval) := hwindow
    _ = _ := by ring

/-- The two calls of `user1` that find the key missing draw on one bucket of five. -/
theorem keyed_limiter_rate_two_users :
    KeyedCalls.attempts ℚ (.perSecond 5) "user1" twoUsers =
        [(2, .tryAcquire 5, .acquired true), (3, .tryAcquire 1, .acquired false)] ∧
      (TokenBucket.grantedIn 0 9 (KeyedCalls.attempts ℚ (.perSecond 5) "user1" twoUsers) : ℚ) ≤
        (5 : UInt64).toNat + (5 : UInt64).toNat * (9 - 0 : Nat) / (1000000000 : Nat) := by
  have hrun : (run (KeyedCalls.step (.perSecond 5)) (KeyedCalls.fresh String ℚ) twoUsers).isSome = true := by
    decide +kernel
  obtain ⟨c, hc⟩ := Option.isSome_iff_exists.mp hrun
  have hattempts : KeyedCalls.attempts ℚ (.perSecond 5) "user1" twoUsers =
      [(2, .tryAcquire 5, .acquired true), (3, .tryAcquire 1, .acquired false)] := by decide +kernel
  exact ⟨hattempts, (keyed_limiter_rate (.perSecond 5) "user1" twoUsers c (by decide) hc (by decide)).2 0 9⟩

end NetworkSystem
