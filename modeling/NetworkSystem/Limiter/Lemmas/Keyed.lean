import NetworkSystem.Limiter.KeyedRateLimiter

/-!
# What an operation on a key reaches

The limiters that a key reaches, through the map and through its calls, are reached by no other key: an
operation on a key leaves them alone (`Local`).
-/

namespace NetworkSystem

open Steps

def KeyedCall.limiter : KeyedCall → Option Nat
  | .acquiring limiter _ _ _ => some limiter
  | _ => none

def KeyedCall.rename (f : Nat → Nat) : KeyedCall → KeyedCall
  | .acquiring limiter tokens timeout call => .acquiring (f limiter) tokens timeout call
  | call => call

/-- The key that the operation is on; `clear` is on every key. -/
def KeyedEvent.key {K : Type} : KeyedEvent K → Option K
  | .tryAcquire key _ _ | .acquire key _ _ _ | .step key _ | .drop key _ | .removeKey key => some key
  | .clear => none

def KeyedEvent.concerns {K : Type} [DecidableEq K] (key : K) (e : KeyedEvent K) : Bool :=
  e.key.all (· == key)

/-- The operation takes the limiter of the key out of the map. -/
def KeyedEvent.removes {K : Type} [DecidableEq K] (key : K) : KeyedEvent K → Bool
  | .removeKey k => k == key
  | .clear => true
  | _ => false

namespace KeyedCalls

variable {K T : Type} {config : RateLimiterConfig} {s s' t : KeyedCalls K T} {key : K} {now i a : Nat}
  {call : KeyedCall} {bucket : TokenBucket T}

/-- The key reaches the limiter, through the map or through one of its calls. -/
def Holds (s : KeyedCalls K T) (key : K) (a : Nat) : Prop :=
  s.limiters key = some a ∨ ∃ i call, s.calls (key, i) = some call ∧ call.limiter = some a

theorem holds_of_call (h : s.calls (key, i) = some call) (ha : call.limiter = some a) : s.Holds key a :=
  Or.inr ⟨i, call, h, ha⟩

theorem holds_of_free (hfree : call.limiter = none) : ∀ a, call.limiter = some a → s.Holds key a := by
  intro a ha
  rw [hfree] at ha
  cases ha

theorem holds_fresh : ¬ (fresh K T).state.Holds key a := by
  rintro (h | ⟨i, call, h, -⟩) <;> cases h

/-! ## Primitive operations -/

section

variable [DecidableEq K]

theorem setCall_same : (s.setCall key i call).calls (key, i) = some call := by
  simp [setCall]

theorem setCall_other {p : K × Nat} (h : p ≠ (key, i)) : (s.setCall key i call).calls p = s.calls p := by
  simp [setCall, h]

theorem holds_setCall (hcall : ∀ a, call.limiter = some a → s.Holds key a)
    (h : (s.setCall key i call).Holds key a) : s.Holds key a := by
  rcases h with h | ⟨j, c, hj, hc⟩
  · exact Or.inl h
  · by_cases hij : (key, j) = (key, i)
    · rw [hij, setCall_same, Option.some.injEq] at hj
      exact hcall a (hj ▸ hc)
    · rw [setCall_other hij] at hj
      exact holds_of_call hj hc

theorem holds_getOrInsert [TokenCount T] :
    (s.getOrInsert config key now).2.Holds key (s.getOrInsert config key now).1 := by
  refine Or.inl ?_
  simp only [getOrInsert, KeyedRateLimiter.getOrInsert]
  split
  · assumption
  · simp

theorem tryOn_eq_some [TokenCount T] {limiter : Nat} {tokens : UInt64} {r : KeyedReply × KeyedCalls K T} :
    s.tryOn config key i limiter now tokens = some r ↔ ∃ bucket, s.buckets[limiter]? = some bucket ∧
      r = (.acquired (bucket.tryAcquire config now tokens).1,
        (s.setBucket limiter (bucket.tryAcquire config now tokens).2).setCall key i .ended) := by
  simp only [tryOn, KeyedRateLimiter.tryAcquireAt, Option.map_map, Option.map_eq_some_iff]
  constructor
  · rintro ⟨bucket, hb, rfl⟩
    exact ⟨bucket, hb, rfl⟩
  · rintro ⟨bucket, hb, rfl⟩
    exact ⟨bucket, hb, rfl⟩

end

/-! ## Other keys are left alone -/

/-- What happens to `s` happens to what the key reaches and to new limiters, which the key alone reaches. Unless
the key is removed its limiter stays in the map, and it reaches a new one only there. -/
structure Local (key : K) (removed : Bool) (s s' : KeyedCalls K T) : Prop where
  limiters : ∀ k, k ≠ key → s'.limiters k = s.limiters k
  calls : ∀ k i, k ≠ key → s'.calls (k, i) = s.calls (k, i)
  buckets : ∀ a, a < s.buckets.length → ¬ s.Holds key a → s'.buckets[a]? = s.buckets[a]?
  grows : s.buckets.length ≤ s'.buckets.length
  held : ∀ a, s'.Holds key a → s.Holds key a ∨ s.buckets.length ≤ a ∧ a < s'.buckets.length ∧
    (removed = false → s'.limiters key = some a)
  kept : removed = false → ∀ a, s.limiters key = some a → s'.limiters key = some a

variable {removed : Bool}

theorem Local.refl (s : KeyedCalls K T) : Local key removed s s :=
  ⟨fun _ _ => rfl, fun _ _ _ => rfl, fun _ _ _ => rfl, le_refl _, fun _ => Or.inl, fun _ _ => id⟩

theorem Local.trans {s₁ s₂ s₃ : KeyedCalls K T} (h : Local key removed s₁ s₂)
    (h' : Local key removed s₂ s₃) : Local key removed s₁ s₃ where
  limiters k hk := (h'.limiters k hk).trans (h.limiters k hk)
  calls k i hk := (h'.calls k i hk).trans (h.calls k i hk)
  grows := h.grows.trans h'.grows
  buckets a ha hnot := by
    have hnot' : ¬ s₂.Holds key a := by
      intro hheld
      rcases h.held a hheld with hheld | ⟨hge, -, -⟩
      · exact hnot hheld
      · omega
    exact (h'.buckets a (by have := h.grows; omega) hnot').trans (h.buckets a ha hnot)
  held a hheld := by
    have hg := h.grows
    have hg' := h'.grows
    rcases h'.held a hheld with hheld | ⟨hge, hlt, hmap⟩
    · rcases h.held a hheld with hheld | ⟨hge, hlt, hmap⟩
      · exact Or.inl hheld
      · exact Or.inr ⟨hge, by omega, fun hr => h'.kept hr a (hmap hr)⟩
    · exact Or.inr ⟨by omega, hlt, hmap⟩
  kept hr a ha := h'.kept hr a (h.kept hr a ha)

theorem Local.setBucket (h : s.Holds key a) : Local key removed s (s.setBucket a bucket) where
  limiters _ _ := rfl
  calls _ _ _ := rfl
  buckets b _ hnot := by
    have hne : a ≠ b := by
      rintro rfl
      exact hnot h
    exact List.getElem?_set_ne hne
  grows := by simp [KeyedCalls.setBucket]
  held _ h := Or.inl h
  kept _ _ := id

section

variable [DecidableEq K]

theorem Local.setCall (hcall : ∀ a, call.limiter = some a → s.Holds key a) :
    Local key removed s (s.setCall key i call) where
  limiters _ _ := rfl
  calls k j hk := setCall_other (by simp [hk])
  buckets _ _ _ := rfl
  grows := le_refl _
  held _ h := Or.inl (holds_setCall hcall h)
  kept _ _ := id

theorem Local.removeKey : Local key true s { s with toKeyedRateLimiter := s.toKeyedRateLimiter.removeKey key } where
  limiters k hk := Function.update_of_ne hk _ _
  calls _ _ _ := rfl
  buckets _ _ _ := rfl
  grows := le_refl _
  held a h := by
    rcases h with h | h
    · simp [KeyedRateLimiter.removeKey] at h
    · exact Or.inl (Or.inr h)
  kept := nofun

variable [TokenCount T]

theorem Local.getOrInsert : Local key removed s (s.getOrInsert config key now).2 := by
  simp only [KeyedCalls.getOrInsert, KeyedRateLimiter.getOrInsert]
  split
  · exact .refl s
  · rename_i hnone
    refine ⟨?_, fun _ _ _ => rfl, ?_, by simp, ?_, ?_⟩
    · intro k hk
      exact Function.update_of_ne hk _ _
    · intro a ha _
      exact List.getElem?_append_left ha
    · rintro a (h | h)
      · have hlast := h
        simp only [Function.update_self, Option.some.injEq] at hlast
        exact Or.inr ⟨by omega, by simp [← hlast], fun _ => h⟩
      · exact Or.inl (Or.inr h)
    · intro _ a ha
      rw [hnone] at ha
      cases ha

theorem Local.tryOn {limiter : Nat} {tokens : UInt64} {r : KeyedReply × KeyedCalls K T}
    (h : s.Holds key limiter) (hr : s.tryOn config key i limiter now tokens = some r) : Local key removed s r.2 := by
  obtain ⟨bucket, -, rfl⟩ := tryOn_eq_some.mp hr
  exact (Local.setBucket h).trans (Local.setCall (holds_of_free rfl))

theorem outcome_limiter {limiter timeout : Nat} {tokens : UInt64} {call : AcquireCall}
    (h : (call.outcome limiter tokens timeout).2.limiter = some a) : a = limiter := by
  unfold AcquireCall.outcome at h
  split at h
  · cases h
  · cases h
  · cases h
  · exact (Option.some.inj h).symm

theorem Local.next {r : KeyedReply × KeyedCalls K T} (hcall : s.calls (key, i) = some call)
    (hr : s.next config key i now call = some r) : Local key removed s r.2 := by
  cases call with
  | looking tokens =>
      simp only [KeyedCalls.next] at hr
      split at hr
      · exact Local.tryOn (Or.inl ‹_›) hr
      · cases hr
        exact Local.setCall (holds_of_free rfl)
  | creating tokens => exact Local.getOrInsert.trans (Local.tryOn holds_getOrInsert hr)
  | opening tokens timeout =>
      cases hr
      refine Local.getOrInsert.trans (Local.setCall ?_)
      intro a ha
      cases ha
      exact holds_getOrInsert
  | acquiring limiter tokens timeout call =>
      have hheld : s.Holds key limiter := holds_of_call hcall rfl
      simp only [KeyedCalls.next, Option.bind_eq_some_iff, Option.map_eq_some_iff] at hr
      obtain ⟨bucket, -, r', -, rfl⟩ := hr
      refine (Local.setBucket hheld).trans (Local.setCall ?_)
      intro a ha
      rw [outcome_limiter ha]
      exact hheld
  | ended => cases hr

theorem callStep_local {e : KeyedEvent K} {r : KeyedReply × KeyedCalls K T}
    (hr : s.callStep config now e = some r) (hkey : e.key = some key) :
    Local key (e.removes key) s r.2 := by
  cases e with
  | tryAcquire k i tokens =>
      cases hkey
      simp only [callStep] at hr
      split at hr <;> cases hr
      exact Local.setCall (holds_of_free rfl)
  | acquire k i tokens timeout =>
      cases hkey
      simp only [callStep] at hr
      split at hr <;> cases hr
      exact Local.setCall (holds_of_free rfl)
  | step k i =>
      cases hkey
      obtain ⟨call, hcall, hr⟩ := Option.bind_eq_some_iff.mp hr
      exact Local.next hcall hr
  | drop k i =>
      cases hkey
      simp only [callStep] at hr
      split at hr <;> cases hr <;> exact Local.setCall (holds_of_free rfl)
  | removeKey k =>
      cases hkey
      cases hr
      simp only [KeyedEvent.removes, beq_self_eq_true]
      exact Local.removeKey
  | clear => cases hkey

end

end KeyedCalls

end NetworkSystem
