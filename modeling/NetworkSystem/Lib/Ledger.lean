import NetworkSystem.Lib.TaskPool
import Mathlib.Algebra.Order.Group.Multiset

/-!
# Things that move through a system

A system takes things in, moves them about and gives them away. What it has in a state is a multiset, and so
nothing is said about places: where each step keeps what the system has but for what it takes in and gives
away, a run keeps it but for all that it took in and gave away.

In a pool of tasks the shared state and the tasks have the things, and a step of one task moves them between
the two. What is given away may depend on the state and on the task that moves.
-/

namespace Steps

universe u v

variable {σ : Type u} {ε β : Type v} {step : σ → ε → Option σ} {away : σ → ε → List β}

/-- What the events of the run give away, one after another. -/
def givenAway (step : σ → ε → Option σ) (away : σ → ε → List β) : σ → List ε → List β
  | _, [] => []
  | s, e :: es =>
      match step s e with
      | none => []
      | some s' => away s e ++ givenAway step away s' es

/-- Where a step keeps what it has but for what its event takes in and gives away, so does a run. -/
theorem run_ledger {has : σ → Multiset β} {takes : ε → List β}
    (hstep : ∀ s e s', step s e = some s' → has s' + ↑(away s e) = has s + ↑(takes e)) :
    ∀ {es : List ε} {s s' : σ}, run step s es = some s' →
      has s' + ↑(givenAway step away s es) = has s + ↑(es.flatMap takes)
  | [], s, s', hr => by
      simp only [run_nil, Option.some.injEq] at hr
      subst hr; rfl
  | e :: es, s, s', hr => by
      obtain ⟨s₁, hs, hr⟩ := run_cons_eq_some.mp hr
      have hfirst := hstep s e s₁ hs
      have hrest := run_ledger hstep hr
      have haway : givenAway step away s (e :: es) = away s e ++ givenAway step away s₁ es := by
        rw [givenAway, hs]
      rw [haway, List.flatMap_cons, ← Multiset.coe_add, ← Multiset.coe_add]
      calc has s' + (↑(away s e) + ↑(givenAway step away s₁ es))
          = has s₁ + ↑(es.flatMap takes) + ↑(away s e) := by
            rw [add_left_comm, add_comm (has s'), ← hrest]
            rw [add_comm, add_comm (has s')]
        _ = has s + (↑(takes e) + ↑(es.flatMap takes)) := by
            rw [add_right_comm, hfirst, add_assoc]

/-- What is given away in two ways. -/
theorem givenAway_append_out {also : σ → ε → List β} : ∀ {es : List ε} {s : σ},
    (↑(givenAway step (fun s e => away s e ++ also s e) s es) : Multiset β) =
      ↑(givenAway step away s es) + ↑(givenAway step also s es)
  | [], _ => rfl
  | e :: es, s => by
      unfold givenAway
      cases step s e with
      | none => rfl
      | some s' =>
          dsimp only
          simp only [← Multiset.coe_add]
          rw [givenAway_append_out]
          exact add_add_add_comm _ _ _ _

/-- What one run has given away, it has given away in every longer run. -/
theorem givenAway_append {es fs : List ε} {s s₁ : σ} (hr : run step s es = some s₁) :
    givenAway step away s (es ++ fs) = givenAway step away s es ++ givenAway step away s₁ fs := by
  induction es generalizing s with
  | nil =>
      simp only [run_nil, Option.some.injEq] at hr
      subst hr; rfl
  | cons e es ih =>
      obtain ⟨s₂, hs, hr⟩ := run_cons_eq_some.mp hr
      rw [List.cons_append, givenAway, givenAway, hs]
      dsimp only
      rw [ih hr, List.append_assoc]

end Steps

namespace TaskPool

universe u v w x

variable {σ : Type u} {τ : Type v} {κ ε β : Type w} {P : Program σ τ κ ε} {p p' : Pool σ τ}

/-- What the event takes in, when only the steps of tasks do. -/
def Event.takes (takes : ε → List β) : Event κ ε → List β
  | .spawn _ => []
  | .act _ e => takes e

/-- What the event makes its task give away. -/
def Pool.givesAway (away : σ → τ → ε → List β) (p : Pool σ τ) : Event κ ε → List β
  | .spawn _ => []
  | .act i e => (p.tasks[i]?).elim [] fun t => away p.shared t e

theorem Pool.givesAway_append {away also : σ → τ → ε → List β} {e : Event κ ε} :
    p.givesAway (fun s t e => away s t e ++ also s t e) e = p.givesAway away e ++ p.givesAway also e := by
  cases e with
  | spawn k => rfl
  | act i e => cases hi : p.tasks[i]? <;> simp [Pool.givesAway, hi]

/-- What each step of a task keeps but for what it takes in and gives away, the pool does. -/
theorem Program.ledger {has : σ → Multiset β} {carries : τ → Multiset β} {takes : ε → List β}
    {away : σ → τ → ε → List β}
    (hact : ∀ s t e s' t', P.act s t e = some (s', t') →
      has s' + carries t' + ↑(away s t e) = has s + carries t + ↑(takes e))
    (hstart : ∀ k, carries (P.start k) = 0) {e : Event κ ε} (h : P.step p e = some p') :
    has p'.shared + p'.total carries + ↑(p.givesAway away e) =
      has p.shared + p.total carries + ↑(e.takes takes) := by
  cases e with
  | spawn k =>
      rw [Program.step_spawn] at h
      cases h
      simp [Pool.total, Pool.givesAway, Event.takes, hstart k]
  | act i e =>
      obtain ⟨t, s', t', ht, ha, rfl⟩ := Program.step_act.mp h
      have hset := sum_map_set carries t' ht
      have hstep := hact _ _ _ _ _ ha
      have haway : p.givesAway away (.act i e : Event κ ε) = away p.shared t e := by
        rw [Pool.givesAway, ht, Option.elim_some]
      have htakes : (Event.act i e : Event κ ε).takes takes = takes e := rfl
      rw [haway, htakes]
      generalize (↑(away p.shared t e) : Multiset β) = out at hstep ⊢
      generalize (↑(takes e) : Multiset β) = new at hstep ⊢
      apply add_right_cancel (b := carries t)
      calc has s' + ((p.tasks.set i t').map carries).sum + out + carries t
          = has s' + carries t' + out + (p.tasks.map carries).sum := by
            rw [add_right_comm _ out, add_assoc (has s'), hset, add_comm _ (carries t'), ← add_assoc,
              add_right_comm]
        _ = has p.shared + p.total carries + new + carries t := by
            rw [hstep, add_right_comm _ new, add_right_comm _ (carries t), add_right_comm _ (carries t)]
            rfl

end TaskPool
