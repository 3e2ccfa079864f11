import NetworkSystem.Limiter.Acquire

/-!
# The steps of `acquire`

What each step of the call does to the bucket and to what is remembered of the call, in any arithmetic.
-/

namespace NetworkSystem

open Steps TokenCount

namespace TokenBucket

variable {T : Type} [TokenCount T]

/-- An attempt takes the tokens out of the refilled bucket, or leaves it refilled. -/
theorem tryAcquire_cases (bucket : TokenBucket T) (config : RateLimiterConfig) (now : Nat) (tokens : UInt64) :
    bucket.tryAcquire config now tokens = (true,
      { bucket.refillTokens config now with tokens := (bucket.refillTokens config now).tokens - ofU64 tokens }) ∨
    bucket.tryAcquire config now tokens = (false, bucket.refillTokens config now) := by
  unfold tryAcquire
  simp only
  split
  · exact Or.inl rfl
  · exact Or.inr rfl

end TokenBucket

theorem RateLimiterConfig.waitTime_eq_none {config : RateLimiterConfig} :
    config.waitTime = none ↔ config.refillAmount.toUInt32 = 0 := by
  unfold waitTime
  simp only
  split
  · rename_i hzero
    exact iff_of_true rfl hzero
  · rename_i hne
    exact iff_of_false (Option.some_ne_none _) hne

namespace Acquiring

variable {T : Type} [TokenCount T] {config : RateLimiterConfig} {tokens : UInt64} {timeout now : Nat}
  {s s' : Acquiring T} {c c' : Clocked (Acquiring T)} {e : Nat × AcquireEvent}

/-- Everything that a step of the call can do. -/
inductive Go (config : RateLimiterConfig) (tokens : UInt64) (timeout : Nat) (s : Acquiring T) (now : Nat) :
    Acquiring T → Prop where
  | starts (hcall : s.call = .starting) :
      Go config tokens timeout s now ⟨s.bucket, .attempting (now + timeout), some now, s.attempts⟩
  | acquires {deadline : Nat} (hcall : s.call = .attempting deadline) :
      Go config tokens timeout s now
        ⟨{ s.bucket.refillTokens config now with
            tokens := (s.bucket.refillTokens config now).tokens - ofU64 tokens },
          .returned (.ok true), s.started, true :: s.attempts⟩
  | refused {deadline : Nat} (hcall : s.call = .attempting deadline) :
      Go config tokens timeout s now
        ⟨s.bucket.refillTokens config now, .refused deadline, s.started, false :: s.attempts⟩
  | timesOut {deadline : Nat} (hcall : s.call = .refused deadline) (hnow : deadline ≤ now) :
      Go config tokens timeout s now ⟨s.bucket, .returned (.error .timeout), s.started, s.attempts⟩
  | pauses {deadline : Nat} (hcall : s.call = .refused deadline) :
      Go config tokens timeout s now ⟨s.bucket, .pausing deadline, s.started, s.attempts⟩
  | panics {deadline : Nat} (hcall : s.call = .pausing deadline) (hzero : config.refillAmount.toUInt32 = 0) :
      Go config tokens timeout s now ⟨s.bucket, .panicked, s.started, s.attempts⟩
  | sleeps {deadline wake : Nat} (hcall : s.call = .pausing deadline) (hne : config.refillAmount.toUInt32 ≠ 0) :
      Go config tokens timeout s now ⟨s.bucket, .sleeping deadline wake, s.started, s.attempts⟩
  | goesOn {deadline : Nat} (hcall : s.call = .pausing deadline) (hne : config.refillAmount.toUInt32 ≠ 0) :
      Go config tokens timeout s now ⟨s.bucket, .attempting deadline, s.started, s.attempts⟩
  | wakes {deadline wake : Nat} (hcall : s.call = .sleeping deadline wake) :
      Go config tokens timeout s now ⟨s.bucket, .attempting deadline, s.started, s.attempts⟩

theorem go_cases (hs : timedStep config tokens timeout s now .go = some s') : Go config tokens timeout s now s' := by
  obtain ⟨⟨call, bucket⟩, hstep, rfl⟩ := Option.map_eq_some_iff.mp hs
  cases hcall : s.call with
  | starting =>
      rw [hcall] at hstep
      cases hstep
      simp only [startedAt, nextAttempts, hcall]
      exact .starts hcall
  | attempting deadline =>
      rw [hcall] at hstep
      simp only [startedAt, nextAttempts, hcall]
      simp only [TokenBucket.acquireStep] at hstep
      rcases s.bucket.tryAcquire_cases config now tokens with h | h
      · rw [h] at hstep ⊢
        cases hstep
        exact .acquires hcall
      · rw [h] at hstep ⊢
        cases hstep
        exact .refused hcall
  | refused deadline =>
      rw [hcall] at hstep
      simp only [startedAt, nextAttempts, hcall]
      simp only [TokenBucket.acquireStep] at hstep
      split at hstep
      · rename_i hnow
        cases hstep
        exact .timesOut hcall hnow
      · cases hstep
        exact .pauses hcall
  | pausing deadline =>
      rw [hcall] at hstep
      simp only [startedAt, nextAttempts, hcall]
      simp only [TokenBucket.acquireStep] at hstep
      split at hstep
      · rename_i hnone
        cases hstep
        exact .panics hcall (RateLimiterConfig.waitTime_eq_none.mp hnone)
      · rename_i waitTime hsome
        have hne : config.refillAmount.toUInt32 ≠ 0 := by
          rw [ne_eq, ← RateLimiterConfig.waitTime_eq_none, hsome]
          nofun
        split at hstep
        · cases hstep
          exact .goesOn hcall hne
        · cases hstep
          exact .sleeps hcall hne
  | sleeping deadline wake =>
      rw [hcall] at hstep
      simp only [startedAt, nextAttempts, hcall]
      simp only [TokenBucket.acquireStep] at hstep
      split at hstep
      · cases hstep
        exact .wakes hcall
      · cases hstep
  | returned result =>
      rw [hcall] at hstep
      cases hstep
  | panicked =>
      rw [hcall] at hstep
      cases hstep

/-- A step of the call, or of another one, which leaves the call as it is. -/
theorem step_cases (hs : step config tokens timeout c e = some c') :
    c.now ≤ e.1 ∧ c'.now = e.1 ∧
      ((e.2 = .go ∧ Go config tokens timeout c.state e.1 c'.state) ∨
        ∃ op, e.2 = .other op ∧ c'.state = { c.state with bucket := (c.state.bucket.apply config e.1 op).2 }) := by
  obtain ⟨hle, hstep, hnow⟩ := clocked_eq_some.mp hs
  refine ⟨hle, hnow, ?_⟩
  cases he : e.2 with
  | go =>
      rw [he] at hstep
      exact Or.inl ⟨rfl, go_cases hstep⟩
  | other op =>
      rw [he] at hstep
      exact Or.inr ⟨op, rfl, (Option.some.inj hstep).symm⟩

theorem takesTokens (c : Clocked (Acquiring T)) (e : Nat × AcquireEvent) : TakesTokens config tokens timeout c e := by
  intro hgo c' hs
  obtain ⟨-, -, ⟨-, hgo⟩ | ⟨op, he, -⟩⟩ := step_cases hs
  · generalize hstate : c'.state = s' at hgo ⊢
    cases hgo with
    | acquires => exact Or.inl ⟨rfl, rfl⟩
    | refused => exact Or.inr ⟨List.count_cons_of_ne Bool.false_ne_true, Or.inr rfl⟩
    | _ => exact Or.inr ⟨rfl, Or.inl rfl⟩
  · rw [hgo] at he
    cases he

/-! ## The invariant -/

/-- The deadline of a call that is under way. -/
def deadlineOf : AcquireCall → Option Nat
  | .attempting deadline | .refused deadline | .pausing deadline | .sleeping deadline _ => some deadline
  | _ => none

def isReturned : AcquireCall → Bool
  | .returned _ => true
  | _ => false

structure Waits (timeout : Nat) (c : Clocked (Acquiring T)) : Prop where
  honest : Honest timeout c
  deadline : ∀ deadline, deadlineOf c.state.call = some deadline →
    ∃ started, c.state.started = some started ∧ deadline = started + timeout
  refused : isReturned c.state.call = false → c.state.attempts.count true = 0

theorem Waits.fresh (config : RateLimiterConfig) (timeout start : Nat) : Waits timeout (fresh T config start) where
  honest := ⟨nofun, nofun, nofun⟩
  deadline _ h := by cases h
  refused _ := rfl

/-- A call that has neither returned nor panicked is honest. -/
theorem honest_of_running {T : Type} {c : Clocked (Acquiring T)} (hreturned : isReturned c.state.call = false)
    (hpanic : c.state.call ≠ .panicked) : Honest timeout c where
  no_panic := hpanic
  acquired ok hok := by
    rw [hok] at hreturned
    cases hreturned
  timed_out herror := by
    rw [herror] at hreturned
    cases hreturned

theorem Waits.other (h : Waits timeout c) {op : LimiterOp} (hnow : c.now ≤ c'.now)
    (hstate : c'.state = { c.state with bucket := (c.state.bucket.apply config e.1 op).2 }) : Waits timeout c' := by
  obtain ⟨now', s'⟩ := c'
  cases hstate
  refine ⟨⟨h.honest.no_panic, h.honest.acquired, fun herror => ?_⟩, h.deadline, h.refused⟩
  obtain ⟨hnone, started, hstarted, hdeadline⟩ := h.honest.timed_out herror
  exact ⟨hnone, started, hstarted, hdeadline.trans hnow⟩

/-- A step to a call that is still under way, with the deadline it had. -/
theorem Waits.running {T : Type} {c c' : Clocked (Acquiring T)} (h : Waits timeout c)
    (hbefore : isReturned c.state.call = false)
    (hafter : ∃ deadline, deadlineOf c.state.call = some deadline ∧ deadlineOf c'.state.call = some deadline)
    (hstarted : c'.state.started = c.state.started)
    (hattempts : c'.state.attempts.count true = c.state.attempts.count true) : Waits timeout c' := by
  obtain ⟨deadline, hdeadline, hdeadline'⟩ := hafter
  have hrunning : isReturned c'.state.call = false ∧ c'.state.call ≠ .panicked := by
    cases hcall : c'.state.call with
    | returned result =>
        rw [hcall] at hdeadline'
        cases hdeadline'
    | panicked =>
        rw [hcall] at hdeadline'
        cases hdeadline'
    | _ => exact ⟨rfl, nofun⟩
  refine ⟨honest_of_running hrunning.1 hrunning.2, fun d hd => ?_, fun _ => ?_⟩
  · rw [hdeadline', Option.some.injEq] at hd
    rw [hstarted, ← hd]
    exact h.deadline deadline hdeadline
  · rw [hattempts]
    exact h.refused hbefore

/-- A step of the call keeps what is promised about it, unless it divides by zero. -/
theorem Waits.go {s : Acquiring T} (h : Waits timeout c) (hgo : Go config tokens timeout c.state now s)
    (hsafe : config.refillAmount.toUInt32 = 0 → isPausing c.state.call = false) : Waits timeout ⟨now, s⟩ := by
  cases hgo with
  | starts hcall =>
      refine ⟨honest_of_running rfl nofun, fun deadline hd => ?_, fun _ => h.refused (by rw [hcall]; rfl)⟩
      cases hd
      exact ⟨now, rfl, rfl⟩
  | acquires hcall =>
      have hnone : c.state.attempts.count true = 0 := h.refused (by rw [hcall]; rfl)
      refine ⟨⟨nofun, fun ok hok => ?_, nofun⟩, nofun, nofun⟩
      cases hok
      exact ⟨rfl, by rw [List.count_cons_self, hnone]⟩
  | refused hcall =>
      exact h.running (by rw [hcall]; rfl) ⟨_, by rw [hcall]; rfl, rfl⟩ rfl (List.count_cons_of_ne Bool.false_ne_true)
  | timesOut hcall hnow =>
      have hnone : c.state.attempts.count true = 0 := h.refused (by rw [hcall]; rfl)
      obtain ⟨started, hstarted, hdeadline⟩ := h.deadline _ (by rw [hcall]; rfl)
      refine ⟨⟨nofun, nofun, fun _ => ⟨hnone, started, hstarted, ?_⟩⟩, nofun, nofun⟩
      rw [← hdeadline]
      exact hnow
  | panics hcall hzero =>
      rw [hcall] at hsafe
      cases hsafe hzero
  | pauses hcall | sleeps hcall | goesOn hcall | wakes hcall =>
      exact h.running (by rw [hcall]; rfl) ⟨_, by rw [hcall]; rfl, rfl⟩ rfl rfl

theorem Waits.step (h : Waits timeout c) (hsafe : PausesSafely config c e)
    (hs : step config tokens timeout c e = some c') : Waits timeout c' := by
  obtain ⟨hle, hnow, ⟨he, hgo⟩ | ⟨op, -, hstate⟩⟩ := step_cases hs
  · obtain ⟨now', s'⟩ := c'
    cases hnow
    exact h.go hgo (hsafe hle he)
  · exact h.other (hle.trans hnow.ge) hstate

theorem Waits.honest_iff (h : Waits timeout c) (hs : Acquiring.step config tokens timeout c e = some c') :
    Honest timeout c' ↔ PausesSafely config c e := by
  constructor
  · intro hhonest hle he hzero
    cases hpausing : isPausing c.state.call with
    | false => rfl
    | true =>
        obtain ⟨-, -, ⟨-, hgo⟩ | ⟨op, hop, -⟩⟩ := step_cases hs
        · have hno_panic := hhonest.no_panic
          generalize c'.state = s' at hgo hno_panic
          cases hgo with
          | panics => exact absurd rfl hno_panic
          | sleeps _ hne | goesOn _ hne => exact absurd hzero hne
          | starts hcall | acquires hcall | refused hcall | timesOut hcall | pauses hcall | wakes hcall =>
              rw [hcall] at hpausing
              cases hpausing
        · rw [he] at hop
          cases hop
  · intro hsafe
    exact (h.step hsafe hs).honest

/-- A step that is refused does not divide. -/
theorem pausesSafely_of_none (hs : Acquiring.step config tokens timeout c e = none) : PausesSafely config c e := by
  intro hle he _
  cases hcall : c.state.call with
  | pausing deadline =>
      simp only [Acquiring.step, clocked, if_pos hle, Option.map_eq_none_iff] at hs
      rw [he] at hs
      simp only [timedStep, hcall, Option.map_eq_none_iff, TokenBucket.acquireStep] at hs
      split at hs
      · cases hs
      · split at hs <;> cases hs
  | _ => rfl

end Acquiring

end NetworkSystem
