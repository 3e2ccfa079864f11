import NetworkSystem.Limiter.Lemmas.Keyed

/-!
# What a key sees of a run

What a key sees of a run is what it sees of the run with the operations on other keys left out (`Mirrors`), up
to the places that its limiters have in the store.
-/

namespace NetworkSystem

open Steps

namespace KeyedCalls

variable {K T : Type} {config : RateLimiterConfig} {s s' t : KeyedCalls K T} {key : K} {now i a : Nat}
  {call : KeyedCall} {bucket : TokenBucket T} {f : Nat → Nat} {removed : Bool}

/-! ## No limiter is reached under two keys -/

structure Owned (s : KeyedCalls K T) : Prop where
  stored : ∀ key a, s.Holds key a → a < s.buckets.length
  alone : ∀ k l a, s.Holds k a → s.Holds l a → k = l

theorem Local.holds_other {k : K} (h : Local key removed s s') (hk : k ≠ key) :
    s'.Holds k a ↔ s.Holds k a := by
  unfold Holds
  rw [h.limiters k hk]
  simp only [h.calls k _ hk]

theorem Owned.of_local [DecidableEq K] (hs : s.Owned) (h : Local key removed s s') : s'.Owned := by
  have hgrows := h.grows
  -- What the key reaches anew is not stored yet, so that nothing else reaches it.
  have hnew : ∀ k a, k ≠ key → s'.Holds k a → s'.Holds key a → False := by
    intro k a hk hka hkey
    have hka := (h.holds_other hk).mp hka
    rcases h.held a hkey with hkey | ⟨hge, -, -⟩
    · exact hk (hs.alone k key a hka hkey)
    · have := hs.stored k a hka
      omega
  constructor
  · intro k a hka
    by_cases hk : k = key
    · rw [hk] at hka
      rcases h.held a hka with hka | ⟨-, hlt, -⟩
      · have := hs.stored key a hka
        omega
      · exact hlt
    · have := hs.stored k a ((h.holds_other hk).mp hka)
      omega
  · intro k l a hka hla
    by_cases hk : k = key <;> by_cases hl : l = key
    · rw [hk, hl]
    · rw [hk] at hka
      exact (hnew l a hl hla hka).elim
    · rw [hl] at hla
      exact (hnew k a hk hka hla).elim
    · exact hs.alone k l a ((h.holds_other hk).mp hka) ((h.holds_other hl).mp hla)

theorem holds_of_cleared (h : { s with toKeyedRateLimiter := s.toKeyedRateLimiter.clear }.Holds key a) :
    s.Holds key a := by
  rcases h with h | h
  · cases h
  · exact Or.inr h

/-! ## The run with the other keys left out -/

/-- What the key reaches in `s` it reaches in `t`, each limiter at another place. -/
structure Mirrors (key : K) (f : Nat → Nat) (s t : KeyedCalls K T) : Prop where
  limiters : t.limiters key = (s.limiters key).map f
  calls : ∀ i, t.calls (key, i) = (s.calls (key, i)).map (KeyedCall.rename f)
  buckets : ∀ a, s.Holds key a → ∃ bucket, s.buckets[a]? = some bucket ∧ t.buckets[f a]? = some bucket
  injective : ∀ a b, s.Holds key a → s.Holds key b → f a = f b → a = b

/-- What is done to other keys does not show. -/
theorem Mirrors.of_local {k : K} (h : Mirrors key f s t) (hs : s.Owned) (hl : Local k removed s s')
    (hk : key ≠ k) : Mirrors key f s' t where
  limiters := by rw [hl.limiters key hk]; exact h.limiters
  calls i := by rw [hl.calls key i hk]; exact h.calls i
  buckets a ha := by
    have ha := (hl.holds_other hk).mp ha
    rw [hl.buckets a (hs.stored key a ha) fun hka => hk (hs.alone key k a ha hka)]
    exact h.buckets a ha
  injective a b ha hb := h.injective a b ((hl.holds_other hk).mp ha) ((hl.holds_other hk).mp hb)

theorem Mirrors.lookup (h : Mirrors key f s t) {o : Option KeyedCall} (ho : s.calls (key, i) = o) :
    t.calls (key, i) = o.map (KeyedCall.rename f) :=
  (h.calls i).trans (congrArg _ ho)

theorem Mirrors.clear (h : Mirrors key f s t) :
    Mirrors key f { s with toKeyedRateLimiter := s.toKeyedRateLimiter.clear }
      { t with toKeyedRateLimiter := t.toKeyedRateLimiter.clear } where
  limiters := rfl
  calls := h.calls
  buckets a ha := h.buckets a (holds_of_cleared ha)
  injective a b ha hb := h.injective a b (holds_of_cleared ha) (holds_of_cleared hb)

/-- The key sees the same in both states, and the second is not ahead of the first. -/
structure Projects (key : K) (c d : Clocked (KeyedCalls K T)) : Prop where
  behind : d.now ≤ c.now
  owned : c.state.Owned
  mirrors : ∃ f, Mirrors key f c.state d.state

theorem Projects.fresh (key : K) : Projects key (fresh K T) (fresh K T) where
  behind := le_refl _
  owned := ⟨fun _ _ h => (holds_fresh h).elim, fun _ _ _ h _ => (holds_fresh h).elim⟩
  mirrors := ⟨id, rfl, fun _ => rfl, fun _ h => (holds_fresh h).elim, fun _ _ h _ => (holds_fresh h).elim⟩

theorem Mirrors.setBucket (h : Mirrors key f s t) (ha : s.Holds key a) :
    Mirrors key f (s.setBucket a bucket) (t.setBucket (f a) bucket) where
  limiters := h.limiters
  calls := h.calls
  buckets b hb := by
    obtain ⟨old, hs, ht⟩ := h.buckets a ha
    by_cases hab : a = b
    · refine ⟨bucket, ?_, ?_⟩
      · rw [← hab]
        exact List.getElem?_set_self (List.getElem?_eq_some_iff.mp hs).1
      · rw [← hab]
        exact List.getElem?_set_self (List.getElem?_eq_some_iff.mp ht).1
    · have hne : f a ≠ f b := fun hf => hab (h.injective a b ha hb hf)
      simp only [KeyedCalls.setBucket, List.getElem?_set_ne hab, List.getElem?_set_ne hne]
      exact h.buckets b hb
  injective := h.injective

section

variable [DecidableEq K]

theorem Mirrors.setCall (h : Mirrors key f s t) (hcall : ∀ a, call.limiter = some a → s.Holds key a) :
    Mirrors key f (s.setCall key i call) (t.setCall key i (call.rename f)) where
  limiters := h.limiters
  calls j := by
    by_cases hij : (key, j) = (key, i)
    · rw [hij, setCall_same, setCall_same, Option.map_some]
    · rw [setCall_other hij, setCall_other hij]
      exact h.calls j
  buckets a ha := h.buckets a (holds_setCall hcall ha)
  injective a b ha hb := h.injective a b (holds_setCall hcall ha) (holds_setCall hcall hb)

theorem holds_of_removed (h : { s with toKeyedRateLimiter := s.toKeyedRateLimiter.removeKey key }.Holds key a) :
    s.Holds key a := by
  rcases h with h | h
  · simp [KeyedRateLimiter.removeKey] at h
  · exact Or.inr h

theorem Mirrors.removeKey (h : Mirrors key f s t) :
    Mirrors key f { s with toKeyedRateLimiter := s.toKeyedRateLimiter.removeKey key }
      { t with toKeyedRateLimiter := t.toKeyedRateLimiter.removeKey key } where
  limiters := by simp [KeyedRateLimiter.removeKey]
  calls := h.calls
  buckets a ha := h.buckets a (holds_of_removed ha)
  injective a b ha hb := h.injective a b (holds_of_removed ha) (holds_of_removed hb)

theorem rename_congr {g : Nat → Nat} (h : ∀ a, call.limiter = some a → f a = g a) :
    call.rename f = call.rename g := by
  cases call with
  | acquiring limiter tokens timeout call => simp only [KeyedCall.rename, h limiter rfl]
  | _ => rfl

variable [TokenCount T]

theorem getOrInsert_of_some (h : s.limiters key = some a) : s.getOrInsert config key now = (a, s) := by
  simp [getOrInsert, KeyedRateLimiter.getOrInsert, h]

theorem getOrInsert_of_none (h : s.limiters key = none) : s.getOrInsert config key now =
    (s.buckets.length, { s with limiters := Function.update s.limiters key (some s.buckets.length),
                                buckets := s.buckets ++ [.withConfig config now] }) := by
  simp [getOrInsert, KeyedRateLimiter.getOrInsert, h]

theorem holds_of_inserted (hs : s.limiters key = none) (h : (s.getOrInsert config key now).2.Holds key a) :
    a = s.buckets.length ∨ s.Holds key a := by
  rw [getOrInsert_of_none hs] at h
  rcases h with h | h
  · simp only [Function.update_self, Option.some.injEq] at h
    exact Or.inl h.symm
  · exact Or.inr (Or.inr h)

/-- Limiters inserted on both sides correspond, at the ends of the two stores. -/
theorem Mirrors.inserted (h : Mirrors key f s t) (hs : s.limiters key = none) (ht : t.limiters key = none) :
    Mirrors key (Function.update f s.buckets.length t.buckets.length) (s.getOrInsert config key now).2
      (t.getOrInsert config key now).2 := by
  have hkept : ∀ a, s.Holds key a → Function.update f s.buckets.length t.buckets.length a = f a := by
    intro a ha
    obtain ⟨_, hb, -⟩ := h.buckets a ha
    have := (List.getElem?_eq_some_iff.mp hb).1
    exact Function.update_of_ne (by omega) _ _
  have hfar : ∀ a, s.Holds key a → f a < t.buckets.length := by
    intro a ha
    obtain ⟨_, -, hb⟩ := h.buckets a ha
    exact (List.getElem?_eq_some_iff.mp hb).1
  constructor
  · simp [getOrInsert_of_none hs, getOrInsert_of_none ht]
  · intro i
    simp only [getOrInsert_of_none hs, getOrInsert_of_none ht, h.calls i]
    cases hcall : s.calls (key, i) with
    | none => rfl
    | some call =>
        rw [Option.map_some, Option.map_some, Option.some.injEq]
        exact rename_congr fun a ha => (hkept a (holds_of_call hcall ha)).symm
  · intro a ha
    rcases holds_of_inserted hs ha with rfl | ha
    · refine ⟨.withConfig config now, ?_⟩
      simp [getOrInsert_of_none hs, getOrInsert_of_none ht]
    · obtain ⟨bucket, hb, hb'⟩ := h.buckets a ha
      rw [hkept a ha, getOrInsert_of_none hs, getOrInsert_of_none ht]
      refine ⟨bucket, ?_, ?_⟩
      · exact (List.getElem?_append_left (List.getElem?_eq_some_iff.mp hb).1).trans hb
      · exact (List.getElem?_append_left (List.getElem?_eq_some_iff.mp hb').1).trans hb'
  · intro a b ha hb hab
    rcases holds_of_inserted hs ha with rfl | ha <;> rcases holds_of_inserted hs hb with rfl | hb
    · rfl
    · rw [Function.update_self, hkept b hb] at hab
      exact absurd hab.symm (Nat.ne_of_lt (hfar b hb))
    · rw [Function.update_self, hkept a ha] at hab
      exact absurd hab (Nat.ne_of_lt (hfar a ha))
    · rw [hkept a ha, hkept b hb] at hab
      exact h.injective a b ha hb hab

theorem Mirrors.getOrInsert (config : RateLimiterConfig) (now : Nat) (h : Mirrors key f s t) :
    ∃ g, Mirrors key g (s.getOrInsert config key now).2 (t.getOrInsert config key now).2 ∧
      g (s.getOrInsert config key now).1 = (t.getOrInsert config key now).1 := by
  have hmap := h.limiters
  cases hs : s.limiters key with
  | some a =>
      rw [hs] at hmap
      rw [getOrInsert_of_some hs, getOrInsert_of_some hmap]
      exact ⟨f, h, rfl⟩
  | none =>
      rw [hs] at hmap
      refine ⟨_, h.inserted hs hmap, ?_⟩
      rw [getOrInsert_of_none hs, getOrInsert_of_none hmap]
      exact Function.update_self _ _ _

/-! ## Steps of the key -/

/-- The other side takes the same step and makes the same reply. -/
def Answers (key : K) (r : KeyedReply × KeyedCalls K T) (o : Option (KeyedReply × KeyedCalls K T)) : Prop :=
  ∃ g t, o = some (r.1, t) ∧ Mirrors key g r.2 t

omit [TokenCount T] in
/-- A call that comes to hold no limiter. -/
theorem Mirrors.answersFree (h : Mirrors key f s t) (hfree : call.limiter = none) (reply : KeyedReply) :
    Answers key (reply, s.setCall key i call) (some (reply, t.setCall key i (call.rename f))) :=
  ⟨f, _, rfl, h.setCall (holds_of_free hfree)⟩

theorem Mirrors.tryOn {limiter : Nat} {tokens : UInt64} {r : KeyedReply × KeyedCalls K T}
    (h : Mirrors key f s t) (hheld : s.Holds key limiter)
    (hr : s.tryOn config key i limiter now tokens = some r) :
    Answers key r (t.tryOn config key i (f limiter) now tokens) := by
  obtain ⟨bucket, hb, rfl⟩ := tryOn_eq_some.mp hr
  obtain ⟨_, hb', ht⟩ := h.buckets limiter hheld
  rw [hb, Option.some.injEq] at hb'
  subst hb'
  exact ⟨f, _, tryOn_eq_some.mpr ⟨bucket, ht, rfl⟩, (h.setBucket hheld).setCall (holds_of_free rfl)⟩

theorem outcome_rename {limiter timeout : Nat} {tokens : UInt64} {call : AcquireCall} :
    call.outcome (f limiter) tokens timeout =
      ((call.outcome limiter tokens timeout).1, (call.outcome limiter tokens timeout).2.rename f) := by
  unfold AcquireCall.outcome
  split <;> rfl

theorem Mirrors.next {r : KeyedReply × KeyedCalls K T} (h : Mirrors key f s t)
    (hcall : s.calls (key, i) = some call) (hr : s.next config key i now call = some r) :
    Answers key r (t.next config key i now (call.rename f)) := by
  cases call with
  | looking tokens =>
      have hmap := h.limiters
      simp only [KeyedCall.rename, KeyedCalls.next, hmap] at hr ⊢
      cases hs : s.limiters key with
      | some limiter =>
          rw [hs] at hr
          exact h.tryOn (Or.inl hs) hr
      | none =>
          rw [hs] at hr
          cases hr
          exact h.answersFree rfl _
  | creating tokens =>
      obtain ⟨g, hg, hlimiter⟩ := h.getOrInsert config now
      simp only [KeyedCall.rename, KeyedCalls.next, ← hlimiter]
      exact hg.tryOn holds_getOrInsert hr
  | opening tokens timeout =>
      obtain ⟨g, hg, hlimiter⟩ := h.getOrInsert config now
      cases hr
      simp only [KeyedCall.rename, KeyedCalls.next, ← hlimiter]
      refine ⟨g, _, rfl, hg.setCall ?_⟩
      intro a ha
      cases ha
      exact holds_getOrInsert
  | acquiring limiter tokens timeout call =>
      have hheld : s.Holds key limiter := holds_of_call hcall rfl
      obtain ⟨bucket, hs, ht⟩ := h.buckets limiter hheld
      simp only [KeyedCall.rename, KeyedCalls.next, hs, ht, Option.bind_some, Option.map_eq_some_iff] at hr ⊢
      obtain ⟨r', hr', rfl⟩ := hr
      rw [hr', Option.map_some, outcome_rename]
      refine ⟨f, _, rfl, (h.setBucket hheld).setCall ?_⟩
      intro a ha
      rw [outcome_limiter ha]
      exact hheld
  | ended => cases hr

theorem eq_of_concerns {k : K} {e : KeyedEvent K} (he : e.concerns key = true) (hk : e.key = some k) : k = key := by
  simpa [KeyedEvent.concerns, hk] using he

theorem Mirrors.callStep {e : KeyedEvent K} {r : KeyedReply × KeyedCalls K T} (h : Mirrors key f s t)
    (he : e.concerns key = true) (hr : s.callStep config now e = some r) :
    Answers key r (t.callStep config now e) := by
  cases e with
  | tryAcquire k i tokens =>
      obtain rfl := eq_of_concerns he rfl
      simp only [KeyedCalls.callStep] at hr ⊢
      split at hr
      · rename_i hcall
        cases hr
        rw [h.lookup hcall]
        exact h.answersFree rfl _
      · cases hr
  | acquire k i tokens timeout =>
      obtain rfl := eq_of_concerns he rfl
      simp only [KeyedCalls.callStep] at hr ⊢
      split at hr
      · rename_i hcall
        cases hr
        rw [h.lookup hcall]
        exact h.answersFree rfl _
      · cases hr
  | step k i =>
      obtain rfl := eq_of_concerns he rfl
      obtain ⟨call, hcall, hr⟩ := Option.bind_eq_some_iff.mp hr
      simp only [KeyedCalls.callStep, h.lookup hcall]
      exact h.next hcall hr
  | drop k i =>
      obtain rfl := eq_of_concerns he rfl
      simp only [KeyedCalls.callStep] at hr ⊢
      split at hr
      · rename_i hcall
        cases hr
        rw [h.lookup hcall]
        exact h.answersFree rfl _
      · rename_i hcall
        cases hr
        rw [h.lookup hcall]
        exact h.answersFree rfl _
      · cases hr
  | removeKey k =>
      obtain rfl := eq_of_concerns he rfl
      cases hr
      exact ⟨f, _, rfl, h.removeKey⟩
  | clear =>
      cases hr
      exact ⟨f, _, rfl, h.clear⟩

/-! ## Runs -/

theorem callStep_owned {e : KeyedEvent K} {r : KeyedReply × KeyedCalls K T} (hs : s.Owned)
    (hr : s.callStep config now e = some r) : r.2.Owned := by
  cases hkey : e.key with
  | some k => exact hs.of_local (callStep_local hr hkey)
  | none =>
      cases e with
      | clear =>
          cases hr
          exact ⟨fun k a h => hs.stored k a (holds_of_cleared h),
            fun k l a h h' => hs.alone k l a (holds_of_cleared h) (holds_of_cleared h')⟩
      | _ => cases hkey

theorem step_eq_some {c c' : Clocked (KeyedCalls K T)} {e : Nat × KeyedEvent K × KeyedReply} :
    step config c e = some c' ↔
      c.now ≤ e.1 ∧ c.state.callStep config e.1 e.2.1 = some (e.2.2, c'.state) ∧ c'.now = e.1 := by
  rw [step, clocked_eq_some, answered_eq_some]

variable {c c' d : Clocked (KeyedCalls K T)} {e : Nat × KeyedEvent K × KeyedReply}

theorem Projects.skip (h : Projects key c d) (he : e.2.1.concerns key = false)
    (hs : KeyedCalls.step config c e = some c') : Projects key c' d := by
  obtain ⟨hle, hcall, hnow⟩ := step_eq_some.mp hs
  obtain ⟨f, hf⟩ := h.mirrors
  have hbehind := h.behind
  refine ⟨by omega, callStep_owned h.owned hcall, f, ?_⟩
  cases hkey : e.2.1.key with
  | none => simp [KeyedEvent.concerns, hkey] at he
  | some k =>
      have hne : key ≠ k := by
        rintro rfl
        simp [KeyedEvent.concerns, hkey] at he
      exact hf.of_local h.owned (callStep_local hcall hkey) hne

theorem Projects.step (h : Projects key c d) (he : e.2.1.concerns key = true)
    (hs : KeyedCalls.step config c e = some c') :
    ∃ d', KeyedCalls.step config d e = some d' ∧ Projects key c' d' := by
  obtain ⟨hle, hcall, hnow⟩ := step_eq_some.mp hs
  obtain ⟨f, hf⟩ := h.mirrors
  obtain ⟨g, t, ht, hg⟩ := hf.callStep he hcall
  refine ⟨⟨e.1, t⟩, step_eq_some.mpr ⟨h.behind.trans hle, ht, rfl⟩, ?_⟩
  exact ⟨hnow.ge, callStep_owned h.owned hcall, g, hg⟩

/-! ## One limiter for a key that is not removed -/

/-- The key reaches no limiter but the one in the map. -/
def Settled (key : K) (s : KeyedCalls K T) : Prop := ∀ a, s.Holds key a → s.limiters key = some a

theorem callStep_kept {e : KeyedEvent K} {r : KeyedReply × KeyedCalls K T}
    (hr : s.callStep config now e = some r) (he : e.removes key = false) (ha : s.limiters key = some a) :
    r.2.limiters key = some a := by
  cases hkey : e.key with
  | some k =>
      have hlocal := callStep_local hr hkey
      by_cases hk : key = k
      · subst hk
        exact hlocal.kept he a ha
      · rw [hlocal.limiters key hk]
        exact ha
  | none =>
      cases e with
      | clear => cases he
      | _ => cases hkey

theorem Settled.callStep {e : KeyedEvent K} {r : KeyedReply × KeyedCalls K T} (h : Settled key s)
    (hr : s.callStep config now e = some r) (he : e.removes key = false) : Settled key r.2 := by
  intro a ha
  cases hkey : e.key with
  | some k =>
      have hlocal := callStep_local hr hkey
      by_cases hk : key = k
      · subst hk
        rcases hlocal.held a ha with ha | ⟨-, -, hmap⟩
        · exact hlocal.kept he a (h a ha)
        · exact hmap he
      · rw [hlocal.limiters key hk]
        exact h a ((hlocal.holds_other hk).mp ha)
  | none =>
      cases e with
      | clear => cases he
      | _ => cases hkey

/-- Where a key is never removed, all its operations are on one limiter. -/
theorem one_limiter {es : List (Nat × KeyedEvent K × KeyedReply)} (h : Settled key c.state)
    (hes : ∀ e ∈ es, e.2.1.removes key = false) (hr : run (KeyedCalls.step config) c es = some c') :
    ∃ limiter, Always (KeyedCalls.step config)
      (fun (d : Clocked (KeyedCalls K T)) => ∀ a, d.state.Holds key a → a = limiter) c es := by
  refine ⟨(c'.state.limiters key).getD 0, ?_⟩
  rintro pre d ⟨post, rfl⟩ hpre a ha
  obtain ⟨d', hpre', hpost⟩ := run_append.mp hr
  rw [hpre, Option.some.injEq] at hpre'
  subst hpre'
  have hsettled : Settled key d.state := by
    refine run_preserves (I := fun d => Settled key d.state) ?_ h
      (along_of_forall fun e he => hes e (List.mem_append_left _ he)) hpre
    intro s e s' hs he hstep
    exact hs.callStep (step_eq_some.mp hstep).2.1 he
  have hmap : c'.state.limiters key = some a := by
    refine run_preserves (I := fun d => d.state.limiters key = some a) ?_ (hsettled a ha)
      (along_of_forall fun e he => hes e (List.mem_append_right _ he)) hpost
    intro s e s' hs he hstep
    exact callStep_kept (step_eq_some.mp hstep).2.1 he hs
  rw [hmap]
  rfl

end

end KeyedCalls

end NetworkSystem
