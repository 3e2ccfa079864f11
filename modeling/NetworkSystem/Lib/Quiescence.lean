import NetworkSystem.Lib.TaskPool

/-!
# Systems that come to rest

A system is left to itself: it takes only steps of its own, and each of them takes something off the work that is
left. Then it takes no more steps than there was work, and it can run on to a state that is quiet, in which none of
its own steps is left. What such a state looks like is for the client to say.

In a pool of tasks the work is that of all tasks and of the shared state.
-/

namespace Steps

universe u v

variable {σ : Type u} {ε : Type v} {step : σ → ε → Option σ} {own : ε → Prop} {work : σ → Nat}

/-- None of the steps of its own is left. -/
def Quiet (step : σ → ε → Option σ) (own : ε → Prop) (s : σ) : Prop := ∀ e, own e → step s e = none

theorem run_work (hwork : ∀ s e s', own e → step s e = some s' → work s' < work s) :
    ∀ {es : List ε} {s s' : σ}, (∀ e ∈ es, own e) → run step s es = some s' → es.length + work s' ≤ work s
  | [], s, s', _, hr => by
      simp only [run_nil, Option.some.injEq] at hr
      subst hr
      exact (Nat.zero_add _).le
  | e :: es, s, s', hown, hr => by
      obtain ⟨hhead, htail⟩ := List.forall_mem_cons.mp hown
      obtain ⟨s₁, hs, hr⟩ := run_cons_eq_some.mp hr
      have hfirst := hwork s e s₁ hhead hs
      have hrest := run_work hwork htail hr
      rw [List.length_cons]
      omega

/-- The system can come to rest. -/
theorem exists_quiet (hwork : ∀ s e s', own e → step s e = some s' → work s' < work s) (s : σ) :
    ∃ es s', (∀ e ∈ es, own e) ∧ run step s es = some s' ∧ Quiet step own s' := by
  induction hn : work s using Nat.strong_induction_on generalizing s with
  | h n ih =>
      by_cases hquiet : Quiet step own s
      · exact ⟨[], s, by simp, rfl, hquiet⟩
      · simp only [Quiet, not_forall] at hquiet
        obtain ⟨e, hown, hne⟩ := hquiet
        obtain ⟨s₁, hs⟩ := Option.ne_none_iff_exists'.mp hne
        obtain ⟨es, s', hes, hr, hend⟩ := ih (work s₁) (hn ▸ hwork s e s₁ hown hs) s₁ rfl
        exact ⟨e :: es, s', List.forall_mem_cons.mpr ⟨hown, hes⟩, run_cons_eq_some.mpr ⟨s₁, hs, hr⟩, hend⟩

end Steps

namespace TaskPool

universe u v w x

variable {σ : Type u} {τ : Type v} {κ : Type w} {ε : Type x} {P : Program σ τ κ ε} {p p' : Pool σ τ}
  {own : ε → Prop} {rest : σ → Nat} {left : τ → Nat} {n : Nat}

/-- A task takes a step of its own. -/
def Event.IsOwn (own : ε → Prop) : Event κ ε → Prop
  | .spawn _ => False
  | .act _ e => own e

instance [DecidablePred own] : DecidablePred (Event.IsOwn (κ := κ) own)
  | .spawn _ => inferInstanceAs (Decidable False)
  | .act _ e => inferInstanceAs (Decidable (own e))

/-- What a step of a task takes off the work of the task and of the shared state, it takes off the work of the
pool. -/
theorem Program.work_lt (hact : ∀ s t e s' t', own e → P.act s t e = some (s', t') → rest s' + left t' < rest s + left t)
    (p : Pool σ τ) (e : Event κ ε) (p' : Pool σ τ) (hown : e.IsOwn own) (h : P.step p e = some p') :
    rest p'.shared + p'.total left < rest p.shared + p.total left := by
  cases e with
  | spawn k => exact hown.elim
  | act i e =>
      obtain ⟨t, s', t', ht, ha, rfl⟩ := Program.step_act.mp h
      have hset := sum_map_set left t' ht
      have hlt := hact _ _ _ _ _ hown ha
      show rest s' + ((p.tasks.set i t').map left).sum < rest p.shared + (p.tasks.map left).sum
      omega

/-- The pool can come to rest, and gets there in no more steps than there is work. -/
theorem Program.rests (hact : ∀ s t e s' t', own e → P.act s t e = some (s', t') → rest s' + left t' < rest s + left t)
    (p : Pool σ τ) :
    (∃ es p', (∀ e ∈ es, e.IsOwn own) ∧ Steps.run P.step p es = some p' ∧ Steps.Quiet P.step (Event.IsOwn own) p') ∧
    ∀ es p', (∀ e ∈ es, e.IsOwn own) → Steps.run P.step p es = some p' → es.length ≤ rest p.shared + p.total left := by
  have hwork := Program.work_lt hact
  refine ⟨Steps.exists_quiet hwork p, fun es p' hes hr => ?_⟩
  exact (Nat.le_add_right _ _).trans (Steps.run_work hwork hes hr)

/-- The event is a step of the task at place `i`. -/
def Event.isAct (i : Nat) : Event κ ε → Bool
  | .spawn _ => false
  | .act j _ => j == i

/-- A task whose own steps take off its work takes no more of them than there is. -/
theorem Program.countP_isAct_le (hact : ∀ s t e s' t', own e → P.act s t e = some (s', t') → left t' < left t)
    {es : List (Event κ ε)} (hes : ∀ e ∈ es, e.IsOwn own) (hr : Steps.run P.step p es = some p') (i : Nat) :
    es.countP (Event.isAct i) ≤ (p.tasks[i]?).elim 0 left := by
  induction es generalizing p with
  | nil => exact Nat.zero_le _
  | cons e es ih =>
      obtain ⟨p₁, hs, hr⟩ := Steps.run_cons_eq_some.mp hr
      have hrest := ih (fun e he => hes e (List.mem_cons_of_mem _ he)) hr
      have hown := hes e List.mem_cons_self
      cases e with
      | spawn k => exact hown.elim
      | act j e =>
          obtain ⟨t, s', t', ht, ha, rfl⟩ := Program.step_act.mp hs
          have hlt := hact _ _ _ _ _ hown ha
          rw [List.countP_cons]
          by_cases hj : j = i
          · subst hj
            rw [List.getElem?_set_self (List.getElem?_eq_some_iff.mp ht).1] at hrest
            simp only [Event.isAct, ht, Option.elim_some, beq_self_eq_true, if_true] at hrest ⊢
            omega
          · rw [List.getElem?_set_ne hj] at hrest
            simpa [Event.isAct, hj] using hrest

theorem Pool.total_le (hleft : ∀ t, left t ≤ n) (p : Pool σ τ) : p.total left ≤ n * p.tasks.length := by
  refine (List.sum_le_card_nsmul _ n ?_).trans (by simp [Nat.mul_comm])
  intro m hm
  obtain ⟨t, _, rfl⟩ := List.mem_map.mp hm
  exact hleft t

/-- In a pool that is quiet no task can take a step of its own. -/
theorem Program.act_none_of_quiet (h : Steps.Quiet P.step (Event.IsOwn own) p) {t : τ} (ht : t ∈ p.tasks) {e : ε}
    (hown : own e) : P.act p.shared t e = none := by
  obtain ⟨i, hi⟩ := List.getElem?_of_mem ht
  have hnone := h (.act i e) hown
  simpa [Program.step, hi] using hnone

end TaskPool
