import NetworkSystem.Limiter.Lemmas.Bucket
import NetworkSystem.Limiter.Lemmas.Isolation

/-!
# The bucket of a key

The attempts of all calls on a key that is not removed are those of one `RateLimiter` of the configuration, whatever is
done to other keys. Its limiter is created full, so that it does not matter when.
-/

namespace NetworkSystem

open Steps

namespace TokenBucket

variable {config : RateLimiterConfig} {c d : Clocked (TokenBucket ℚ)} {t now : Nat}

theorem RefillsAlike.later (h : RefillsAlike config c d) (ht : c.now ≤ t) : RefillsAlike config ⟨t, c.state⟩ d where
  behind := h.behind.trans ht
  past := h.past.trans ht
  alike u hu := h.alike u (ht.trans hu)

/-- A full bucket stays full, so that one is like another that was full before. -/
theorem refillsAlike_full (hi : 0 < config.refillInterval) :
    RefillsAlike config ⟨now, withConfig config now⟩ (fresh ℚ config 0) where
  behind := Nat.zero_le now
  past := le_refl now
  alike u _ := by
    have hrate := config.rate_nonneg
    have hfull : ∀ start, ((withConfig config start : TokenBucket ℚ).refillTokens config u).tokens =
        config.capacity.toNat := by
      intro start
      rw [refillTokens_tokens hi]
      refine min_eq_right (le_add_of_nonneg_right ?_)
      positivity
    exact TokenBucket.ext ((hfull now).trans (hfull 0).symm) rfl

/-- Only an attempt of `acquire` touches the bucket. -/
theorem acquireStep_bucket {tokens : UInt64} {timeout : Nat} {bucket : TokenBucket ℚ} {call : AcquireCall}
    {r : AcquireCall × TokenBucket ℚ} (hcall : ∀ deadline, call ≠ .attempting deadline)
    (hr : bucket.acquireStep config tokens timeout now call = some r) : r.2 = bucket := by
  cases call with
  | attempting deadline => exact absurd rfl (hcall deadline)
  | starting => cases hr; rfl
  | refused deadline =>
      simp only [acquireStep] at hr
      split at hr <;> cases hr <;> rfl
  | pausing deadline =>
      simp only [acquireStep] at hr
      split at hr
      · cases hr; rfl
      · split at hr <;> cases hr <;> rfl
  | sleeping deadline wake =>
      simp only [acquireStep] at hr
      split at hr <;> cases hr
      rfl
  | returned result => cases hr
  | panicked => cases hr

end TokenBucket

namespace KeyedCalls

open TokenBucket

variable {K : Type} {config : RateLimiterConfig} {s s' : KeyedCalls K ℚ} {key : K} {now u i a : Nat}
  {call : KeyedCall} {d : Clocked (TokenBucket ℚ)} {bucket : TokenBucket ℚ}

/-- The bucket of the key is like `d`, which is full while there is none. -/
structure DrawsOn (config : RateLimiterConfig) (key : K) (now : Nat) (s : KeyedCalls K ℚ)
    (d : Clocked (TokenBucket ℚ)) : Prop where
  full : s.limiters key = none → d = TokenBucket.fresh ℚ config 0
  alike : ∀ a bucket, s.limiters key = some a → s.buckets[a]? = some bucket → RefillsAlike config ⟨now, bucket⟩ d

theorem DrawsOn.later (h : DrawsOn config key now s d) (hle : now ≤ u) : DrawsOn config key u s d where
  full := h.full
  alike a bucket ha hb := (h.alike a bucket ha hb).later hle

theorem DrawsOn.congr (h : DrawsOn config key now s d) (hl : s'.limiters key = s.limiters key)
    (hb : ∀ a, s.limiters key = some a → s'.buckets[a]? = s.buckets[a]?) : DrawsOn config key now s' d where
  full hnone := h.full (by rwa [← hl])
  alike a bucket ha hbucket := by
    rw [hl] at ha
    exact h.alike a bucket ha (by rwa [← hb a ha])

/-- An attempt on the limiter of the key is one on `d`, with the same result. -/
theorem DrawsOn.tryAcquire {tokens : UInt64} (h : DrawsOn config key now s d) (ha : s.limiters key = some a)
    (hb : s.buckets[a]? = some bucket) :
    ∃ d', TokenBucket.step config d (now, .tryAcquire tokens, .acquired (bucket.tryAcquire config now tokens).1) =
        some d' ∧
      DrawsOn config key now (s.setBucket a (bucket.tryAcquire config now tokens).2) d' := by
  have hs : TokenBucket.step config ⟨now, bucket⟩
      (now, .tryAcquire tokens, .acquired (bucket.tryAcquire config now tokens).1) =
        some ⟨now, (bucket.tryAcquire config now tokens).2⟩ :=
    TokenBucket.step_eq_some.mpr ⟨le_refl now, rfl, rfl⟩
  obtain ⟨d', hd, halike⟩ := (h.alike a bucket ha hb).step hs
  refine ⟨d', hd, fun hnone => ?_, fun a' bucket' ha' hb' => ?_⟩
  · rw [show s.limiters key = none from hnone] at ha
    cases ha
  · obtain rfl : a' = a := Option.some.inj ((show s.limiters key = some a' from ha').symm.trans ha)
    have hset := List.getElem?_set_self (a := (bucket.tryAcquire config now tokens).2)
      (List.getElem?_eq_some_iff.mp hb).1
    obtain rfl := Option.some.inj (hb'.symm.trans hset)
    exact halike

theorem DrawsOn.setBucket (h : DrawsOn config key now s d) (hb : s.buckets[a]? = some bucket) :
    DrawsOn config key now (s.setBucket a bucket) d := by
  refine h.congr rfl fun a' _ => ?_
  by_cases ha : a = a'
  · subst ha
    rw [hb]
    exact List.getElem?_set_self (List.getElem?_eq_some_iff.mp hb).1
  · exact List.getElem?_set_ne ha

structure OneBucket (config : RateLimiterConfig) (key : K) (c : Clocked (KeyedCalls K ℚ))
    (d : Clocked (TokenBucket ℚ)) : Prop where
  owned : c.state.Owned
  settled : Settled key c.state
  draws : DrawsOn config key c.now c.state d

theorem OneBucket.fresh (config : RateLimiterConfig) (key : K) :
    OneBucket config key (KeyedCalls.fresh K ℚ) (TokenBucket.fresh ℚ config 0) where
  owned := ⟨fun _ _ h => (holds_fresh h).elim, fun _ _ _ h _ => (holds_fresh h).elim⟩
  settled := fun _ h => (holds_fresh h).elim
  draws := ⟨fun _ => rfl, fun a _ ha _ => by cases ha⟩

/-- What is done to another key leaves the bucket alone. -/
theorem DrawsOn.other {k : K} {removed : Bool} (h : DrawsOn config key now s d) (hs : s.Owned)
    (hl : Local k removed s s') (hk : key ≠ k) : DrawsOn config key now s' d := by
  refine h.congr (hl.limiters key hk) fun a ha => hl.buckets a (hs.stored key a (Or.inl ha)) ?_
  intro hheld
  exact hk (hs.alone key k a (Or.inl ha) hheld)

section

variable [DecidableEq K]

theorem DrawsOn.setCall {k : K} (h : DrawsOn config key now s d) : DrawsOn config key now (s.setCall k i call) d :=
  h.congr rfl fun _ _ => rfl

theorem DrawsOn.getOrInsert (h : DrawsOn config key now s d) (hi : 0 < config.refillInterval) :
    DrawsOn config key now (s.getOrInsert config key now).2 d := by
  cases hkey : s.limiters key with
  | some a =>
      rw [getOrInsert_of_some hkey]
      exact h
  | none =>
      rw [getOrInsert_of_none hkey]
      refine ⟨fun hnone => ?_, fun a bucket ha hb => ?_⟩
      · simp at hnone
      · simp only [Function.update_self, Option.some.injEq] at ha
        subst ha
        rw [List.getElem?_concat_length, Option.some.injEq] at hb
        rw [h.full hkey, ← hb]
        exact refillsAlike_full hi

theorem limiters_getOrInsert :
    (s.getOrInsert config key now).2.limiters key = some (s.getOrInsert config key now).1 := by
  cases hkey : s.limiters key with
  | some a => rw [getOrInsert_of_some hkey]; exact hkey
  | none =>
      rw [getOrInsert_of_none hkey]
      exact Function.update_self _ _ _

/-- The next step of a call on the key is an attempt on `d` or leaves `d` alone. -/
theorem DrawsOn.next {r : KeyedReply × KeyedCalls K ℚ} (h : DrawsOn config key now s d)
    (hi : 0 < config.refillInterval) (hset : Settled key s) (hcall : s.calls (key, i) = some call)
    (hr : s.next config key i now call = some r) :
    (call.asks (s.limiters key).isSome = none → DrawsOn config key now r.2 d) ∧
      ∀ tokens, call.asks (s.limiters key).isSome = some tokens →
        ∃ d', TokenBucket.step config d (now, .tryAcquire tokens, .acquired (r.1 = .acquired true)) = some d' ∧
          DrawsOn config key now r.2 d' := by
  have htry : ∀ {s : KeyedCalls K ℚ} {a : Nat} {tokens : UInt64}, DrawsOn config key now s d →
      s.limiters key = some a → s.tryOn config key i a now tokens = some r →
        ∃ d', TokenBucket.step config d (now, .tryAcquire tokens, .acquired (r.1 = .acquired true)) = some d' ∧
          DrawsOn config key now r.2 d' := by
    intro s a tokens h ha hr
    obtain ⟨bucket, hb, rfl⟩ := tryOn_eq_some.mp hr
    obtain ⟨d', hd, h'⟩ := h.tryAcquire ha hb
    exact ⟨d', by simpa using hd, h'.setCall⟩
  cases call with
  | looking tokens =>
      simp only [KeyedCalls.next] at hr
      split at hr
      · rename_i a ha
        refine ⟨fun hnone => by simp [KeyedCall.asks, ha] at hnone, fun n hn => ?_⟩
        simp only [KeyedCall.asks, ha, Option.isSome_some, ↓reduceIte, Option.some.injEq] at hn
        subst hn
        exact htry h ha hr
      · rename_i hmissing
        cases hr
        exact ⟨fun _ => h.setCall, fun n hn => by simp [KeyedCall.asks, hmissing] at hn⟩
  | creating tokens =>
      refine ⟨fun hnone => (by cases hnone), fun n hn => ?_⟩
      cases hn
      exact htry (h.getOrInsert hi) limiters_getOrInsert hr
  | opening tokens timeout =>
      cases hr
      exact ⟨fun _ => (h.getOrInsert hi).setCall, fun n hn => (by cases hn)⟩
  | acquiring limiter tokens timeout call =>
      have ha : s.limiters key = some limiter := hset limiter (holds_of_call hcall rfl)
      simp only [KeyedCalls.next, Option.bind_eq_some_iff, Option.map_eq_some_iff] at hr
      obtain ⟨bucket, hb, r', hr', rfl⟩ := hr
      by_cases hattempt : ∃ deadline, call = .attempting deadline
      · obtain ⟨deadline, rfl⟩ := hattempt
        refine ⟨fun hnone => (by cases hnone), fun n hn => ?_⟩
        cases hn
        obtain ⟨d', hd, h'⟩ := h.tryAcquire ha hb
        simp only [TokenBucket.acquireStep] at hr'
        split at hr' <;> rename_i hacquire
        · cases hr'
          rw [hacquire] at hd h'
          exact ⟨d', hd, h'.setCall⟩
        · cases hr'
          rw [hacquire] at hd h'
          exact ⟨d', hd, h'.setCall⟩
      · have hcalm : ∀ deadline, call ≠ .attempting deadline := fun deadline hc => hattempt ⟨deadline, hc⟩
        obtain rfl := acquireStep_bucket hcalm hr'
        refine ⟨fun _ => (h.setBucket hb).setCall, fun n hn => ?_⟩
        cases call with
        | attempting deadline => exact absurd rfl (hcalm deadline)
        | _ => cases hn
  | ended => cases hr

/-! ## Runs -/

theorem DrawsOn.callStep {e : KeyedEvent K} {r : KeyedReply × KeyedCalls K ℚ} (h : DrawsOn config key now s d)
    (hi : 0 < config.refillInterval) (hset : Settled key s) (he : e.removes key = false)
    (hkey : e.key = some key) (hr : s.callStep config now e = some r) :
    (attempt key ⟨u, s⟩ (now, e, r.1) = none → DrawsOn config key now r.2 d) ∧
      ∀ b, attempt key ⟨u, s⟩ (now, e, r.1) = some b →
        ∃ d', TokenBucket.step config d b = some d' ∧ DrawsOn config key now r.2 d' := by
  cases e with
  | tryAcquire k i tokens =>
      simp only [KeyedCalls.callStep] at hr
      split at hr <;> cases hr
      exact ⟨fun _ => h.setCall, fun b hb => (by cases hb)⟩
  | acquire k i tokens timeout =>
      simp only [KeyedCalls.callStep] at hr
      split at hr <;> cases hr
      exact ⟨fun _ => h.setCall, fun b hb => (by cases hb)⟩
  | step k i =>
      cases hkey
      obtain ⟨call, hcall, hr⟩ := Option.bind_eq_some_iff.mp hr
      obtain ⟨hhidden, hseen⟩ := h.next hi hset hcall hr
      have hattempt : attempt key ⟨u, s⟩ (now, .step key i, r.1) =
          (call.asks (s.limiters key).isSome).map fun tokens =>
            (now, .tryAcquire tokens, .acquired (r.1 = .acquired true)) := by
        simp only [attempt, ↓reduceIte, hcall, Option.bind_some]
      rw [hattempt]
      refine ⟨fun hnone => hhidden (Option.map_eq_none_iff.mp hnone), fun b hb => ?_⟩
      obtain ⟨tokens, hasks, rfl⟩ := Option.map_eq_some_iff.mp hb
      exact hseen tokens hasks
  | drop k i =>
      simp only [KeyedCalls.callStep] at hr
      split at hr <;> cases hr <;> exact ⟨fun _ => h.setCall, fun b hb => (by cases hb)⟩
  | removeKey k =>
      cases hkey
      simp [KeyedEvent.removes] at he
  | clear => cases he

theorem attempt_other {c : Clocked (KeyedCalls K ℚ)} {e : Nat × KeyedEvent K × KeyedReply} {k : K}
    (hkey : e.2.1.key = some k) (hk : key ≠ k) : attempt key c e = none := by
  obtain ⟨t, e, reply⟩ := e
  cases e with
  | step k' i =>
      cases hkey
      exact if_neg (Ne.symm hk)
  | _ => rfl

/-- An event of the run is an attempt on `d`, or `d` does not see it. -/
theorem OneBucket.step {c c' : Clocked (KeyedCalls K ℚ)} {e : Nat × KeyedEvent K × KeyedReply}
    (h : OneBucket config key c d) (hi : 0 < config.refillInterval) (he : e.2.1.removes key = false)
    (hs : KeyedCalls.step config c e = some c') :
    (attempt key c e = none → OneBucket config key c' d) ∧
      ∀ b, attempt key c e = some b → ∃ d', TokenBucket.step config d b = some d' ∧ OneBucket config key c' d' := by
  obtain ⟨hle, hcall, hnow⟩ := step_eq_some.mp hs
  have howned : c'.state.Owned := callStep_owned h.owned hcall
  have hsettled : Settled key c'.state := h.settled.callStep hcall he
  have hlater : DrawsOn config key e.1 c.state d := h.draws.later hle
  cases hkey : e.2.1.key with
  | none =>
      obtain ⟨t, e, reply⟩ := e
      cases e with
      | clear => cases he
      | _ => cases hkey
  | some k =>
      by_cases hk : key = k
      · subst hk
        obtain ⟨hhidden, hseen⟩ := hlater.callStep (u := c.now) hi h.settled he hkey hcall
        refine ⟨fun hnone => ⟨howned, hsettled, ?_⟩, fun b hb => ?_⟩
        · rw [hnow]
          exact hhidden hnone
        · obtain ⟨d', hd, hdraws⟩ := hseen b hb
          refine ⟨d', hd, howned, hsettled, ?_⟩
          rw [hnow]
          exact hdraws
      · rw [attempt_other hkey hk]
        refine ⟨fun _ => ⟨howned, hsettled, ?_⟩, fun b hb => (by cases hb)⟩
        rw [hnow]
        exact hlater.other h.owned (callStep_local hcall hkey) hk

/-- The attempts on a key are those of one bucket. -/
theorem attempts_run {es : List (Nat × KeyedEvent K × KeyedReply)} {c : Clocked (KeyedCalls K ℚ)}
    (hi : 0 < config.refillInterval) (hes : ∀ e ∈ es, e.2.1.removes key = false)
    (hr : run (KeyedCalls.step config) (KeyedCalls.fresh K ℚ) es = some c) :
    ∃ d, run (TokenBucket.step config) (TokenBucket.fresh ℚ config 0) (attempts ℚ config key es) = some d := by
  obtain ⟨d, hd, -⟩ := run_outputs (R := OneBucket config key) (D := fun e => e.2.1.removes key = false)
    (fun _ _ _ _ h he hs => (h.step hi he hs).1) (fun _ _ _ _ b h he hs hb => (h.step hi he hs).2 b hb)
    (.fresh config key) hes hr
  exact ⟨d, hd⟩

/-- No attempt resets the bucket. -/
theorem attempts_no_reset (config : RateLimiterConfig) (key : K) (es : List (Nat × KeyedEvent K × KeyedReply)) :
    ∀ b ∈ attempts ℚ config key es, b.2.1 ≠ .reset := by
  refine forall_outputs (Q := fun b : Nat × LimiterOp × LimiterReply => b.2.1 ≠ .reset) ?_ es _
  rintro c ⟨now, e, reply⟩ b hb
  cases e with
  | step k i =>
      simp only [attempt, Option.ite_none_right_eq_some, Option.bind_eq_some_iff, Option.map_eq_some_iff] at hb
      obtain ⟨_, _, _, _, _, rfl⟩ := hb
      exact fun hreset => by cases hreset
  | _ => cases hb

end

end KeyedCalls

end NetworkSystem
