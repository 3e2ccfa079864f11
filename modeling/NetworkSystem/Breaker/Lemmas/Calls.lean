import NetworkSystem.Breaker.Lemmas.Step
import NetworkSystem.Lib.TaskPool

/-!
# Calls through the breaker

The steps of `call` are steps of the breaker, so that every run of the calls is a run of the breaker
(`run_breaker`), and what is shown of every run of the breaker holds whatever calls share it.
-/

namespace NetworkSystem

open Steps TaskPool

def BreakerEvent.op (s : BreakerCalls) : BreakerEvent → Option BreakerOp
  | .direct op => some op
  | .enter _ => some .isRequestAllowed
  | .record i => if s.calls[i]? = some (.resolved true) then some .recordSuccess else some .recordFailure
  | .call | .poll _ _ | .drop _ => none

theorem BreakerEvent.op_eq_reset {b : BreakerCalls} {e : BreakerEvent} (h : e.op b = some .reset) :
    e = .direct .reset := by
  cases e with
  | direct op => cases h; rfl
  | record i =>
      simp only [BreakerEvent.op] at h
      split at h <;> cases h
  | _ => cases h

theorem BreakerEvent.asks_of_op {b : BreakerCalls} {e : BreakerEvent}
    (h : e.op b = some .isRequestAllowed) : e.asks = true := by
  cases e with
  | direct op => cases h; rfl
  | enter i => rfl
  | record i =>
      simp only [BreakerEvent.op] at h
      split at h <;> cases h
  | _ => cases h

namespace BreakerCalls

section

variable {config : CircuitBreakerConfig} {b b' : BreakerCalls} {now : Nat} {e : BreakerEvent}

theorem callStep_breaker (h : callStep config b now e = some b') :
    b'.breaker = ((e.op b).map (b.breaker.apply config now)).getD b.breaker := by
  cases e with
  | direct op => cases h; rfl
  | call => cases h; rfl
  | enter i =>
      have hop : (b.breaker.apply config now .isRequestAllowed) =
        (b.breaker.isRequestAllowed config now).2 := rfl
      simp only [callStep] at h
      split at h
      · split at h <;> rename_i hb <;> cases h <;>
          simp only [BreakerEvent.op, Option.map_some, Option.getD_some, hop, hb]
      · cases h
  | poll i result =>
      simp only [callStep] at h
      split at h <;> cases h <;> rfl
  | record i =>
      simp only [callStep] at h
      split at h
      · rename_i hi
        cases h
        simp only [BreakerEvent.op, hi, ↓reduceIte]
        rfl
      · rename_i hi
        cases h
        simp only [BreakerEvent.op, hi]
        rfl
      · cases h
  | drop i =>
      simp only [callStep] at h
      split at h <;> cases h <;> rfl

theorem polling_of_set {calls : List BreakerCall} {i j : Nat} {c : BreakerCall}
    (hi : (calls.set j c)[i]? = some .polling) (hc : c ≠ .polling) : calls[i]? = some .polling := by
  rcases getElem?_set_cases hi with ⟨-, hpolling⟩ | ⟨-, hi⟩
  · exact absurd hpolling.symm hc
  · exact hi

/-- A call polls its future only after the breaker has let it through. -/
theorem callStep_polling {i : Nat} (h : callStep config b now e = some b')
    (hi : b'.calls[i]? = some .polling) :
    b.calls[i]? = some .polling ∨ e = .enter i ∧ (b.breaker.isRequestAllowed config now).1 = true := by
  cases e with
  | direct op => cases h; exact Or.inl hi
  | call =>
      cases h
      rcases getElem?_snoc_cases hi with hi | ⟨-, hc⟩
      · exact Or.inl hi
      · cases hc
  | enter j =>
      simp only [callStep] at h
      split at h
      · split at h <;> rename_i hb <;> cases h
        · rcases getElem?_set_cases hi with ⟨rfl, -⟩ | ⟨-, hi⟩
          · exact Or.inr ⟨rfl, by rw [hb]⟩
          · exact Or.inl hi
        · exact Or.inl (polling_of_set hi nofun)
      · cases h
  | poll j result =>
      simp only [callStep] at h
      split at h
      · cases h; exact Or.inl hi
      · cases h; exact Or.inl (polling_of_set hi nofun)
      · cases h
  | record j =>
      simp only [callStep] at h
      split at h
      · cases h; exact Or.inl (polling_of_set hi nofun)
      · cases h; exact Or.inl (polling_of_set hi nofun)
      · cases h
  | drop j =>
      simp only [callStep] at h
      split at h
      · cases h; exact Or.inl (polling_of_set hi nofun)
      · cases h; exact Or.inl (polling_of_set hi nofun)
      · cases h

end

/-! ## What the calls do to the breaker -/

variable {config : CircuitBreakerConfig} {c c' : Clocked BreakerCalls}

/-- What the calls do to the breaker is a run of the breaker. -/
theorem run_breaker {es : List (Nat × BreakerEvent)} (hr : run (step config) c es = some c') :
    ∃ ops d, run (CircuitBreaker.step config) ⟨c.now, c.state.breaker⟩ ops = some d ∧
      d.now ≤ c'.now ∧ d.state = c'.state.breaker := by
  refine run_invariant (I := fun c' => ∃ ops d, run (CircuitBreaker.step config)
    ⟨c.now, c.state.breaker⟩ ops = some d ∧ d.now ≤ c'.now ∧ d.state = c'.state.breaker) ?_ ?_ hr
  · rintro c₁ e c₂ ⟨ops, d, hd, hle, hstate⟩ hs
    obtain ⟨hnow, hcall, hnow'⟩ := clocked_eq_some.mp hs
    have hbreaker := callStep_breaker hcall
    cases hop : e.2.op c₁.state with
    | none =>
        rw [hop] at hbreaker
        exact ⟨ops, d, hd, by omega, hstate.trans hbreaker.symm⟩
    | some op =>
        rw [hop, ← hstate] at hbreaker
        refine ⟨ops ++ [(e.1, op)], ⟨e.1, d.state.apply config e.1 op⟩, ?_, hnow'.ge, hbreaker.symm⟩
        have hlast : CircuitBreaker.step config d (e.1, op) = some ⟨e.1, d.state.apply config e.1 op⟩ :=
          clocked_eq_some.mpr ⟨by omega, rfl, rfl⟩
        exact run_append.mpr ⟨d, hd, run_cons_eq_some.mpr ⟨_, hlast, rfl⟩⟩
  · exact ⟨[], _, rfl, le_refl _, rfl⟩

/-! ## An open breaker -/

/-- The breaker is open since `openedAt`, and of the calls only those polled then are polled. -/
structure OpenSince (openedAt : Nat) (calls : List BreakerCall) (c : Clocked BreakerCalls) : Prop where
  past : openedAt ≤ c.now
  opened : c.state.breaker.state = .«open»
  since : c.state.breaker.openedAt = some openedAt
  polling : ∀ (i : Nat), c.state.calls[i]? = some .polling → calls[i]? = some .polling

theorem refused {s : CircuitBreaker} {openedAt t : Nat} (h : s.state = .«open»)
    (ho : s.openedAt = some openedAt) (hle : openedAt ≤ t) (ht : t < openedAt + config.timeout) :
    s.isRequestAllowed config t = (false, s) := by
  unfold CircuitBreaker.isRequestAllowed
  rw [h, ho]
  exact if_neg (by omega)

theorem probed {s : CircuitBreaker} {openedAt t : Nat} (h : s.state = .«open»)
    (ho : s.openedAt = some openedAt) (ht : openedAt + config.timeout ≤ t) :
    (s.isRequestAllowed config t).1 = true ∧ (s.isRequestAllowed config t).2.state = .halfOpen := by
  unfold CircuitBreaker.isRequestAllowed
  rw [h, ho]
  have hle : t - openedAt ≥ config.timeout := by omega
  simp only [hle, ↓reduceIte, and_self]

theorem OpenSince.step {openedAt : Nat} {calls : List BreakerCall} {e : Nat × BreakerEvent}
    (h : OpenSince openedAt calls c) (hs : BreakerCalls.step config c e = some c')
    (hreset : e.2 ≠ .direct .reset) (hask : e.2.asks = true → e.1 < openedAt + config.timeout) :
    OpenSince openedAt calls c' := by
  obtain ⟨hle, hcall, hnow⟩ := clocked_eq_some.mp hs
  have hpast : openedAt ≤ e.1 := Nat.le_trans h.past hle
  have hbreaker := callStep_breaker hcall
  have hstays : c'.state.breaker.state = .«open» ∧ c'.state.breaker.openedAt = some openedAt := by
    cases hop : e.2.op c.state with
    | none =>
        rw [hop] at hbreaker
        rw [hbreaker]
        exact ⟨h.opened, h.since⟩
    | some op =>
        rw [hop] at hbreaker
        rw [hbreaker]
        have hb : BreakerStep config c.state.breaker e.1 op (c.state.breaker.apply config e.1 op) :=
          CircuitBreaker.apply_step
        refine hb.stays_open h.opened h.since hpast ?_ ?_
        · rintro rfl
          exact hreset (BreakerEvent.op_eq_reset hop)
        · rintro rfl
          exact hask (BreakerEvent.asks_of_op hop)
  refine ⟨by omega, hstays.1, hstays.2, ?_⟩
  intro i hi
  rcases callStep_polling hcall hi with hi | ⟨he, hallowed⟩
  · exact h.polling i hi
  · have hlt := hask (by rw [he]; rfl)
    rw [refused h.opened h.since hpast hlt] at hallowed
    cases hallowed

end BreakerCalls

end NetworkSystem
