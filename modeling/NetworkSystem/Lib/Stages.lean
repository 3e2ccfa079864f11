/-!
# Pipelines of stages

A pipeline hands what a stage returns to the next one. Where every stage can be undone, the pipeline is undone by
what undoes its stages, in reverse order. Where a stage can fail in a world that it acts on, a pipeline that fails
has stopped at one stage, with the error and the world that this stage has left.
-/

namespace Stages

universe u v w

section

variable {m : Type u → Type v} [Monad m] {α : Type u} {p : α → m α} {ps qs : List (α → m α)} {a : α}

def through (stages : List (α → m α)) (a : α) : m α := stages.foldlM (fun a stage => stage a) a

/-- `q` undoes `p`. -/
def Undoes (p q : α → m α) : Prop := ∀ a, (p a >>= q) = pure a

theorem through_cons : through (p :: ps) a = p a >>= through ps := rfl

variable [LawfulMonad m]

theorem through_append : through (ps ++ qs) a = through ps a >>= through qs := List.foldlM_append

theorem through_singleton : through [p] = p := funext fun a => bind_pure (p a)

/-- What undoes the last stage runs first. -/
theorem undoes_mirrored {S : Type w} {run inverse : S → α → m α} {stages : List S}
    (h : ∀ s ∈ stages, Undoes (run s) (inverse s)) :
    Undoes (through (stages.map run)) (through (stages.map inverse).reverse) := by
  induction stages with
  | nil => exact fun a => pure_bind a _
  | cons s stages ih =>
      intro a
      have hs : Undoes (run s) (inverse s) := h s List.mem_cons_self
      have hstages := ih fun t ht => h t (List.mem_cons_of_mem _ ht)
      have hlast : ∀ b, through (stages.map inverse).reverse b >>= inverse s =
          through ((s :: stages).map inverse).reverse b := by
        intro b
        rw [List.map_cons, List.reverse_cons, through_append, through_singleton]
      calc
        through ((s :: stages).map run) a >>= through ((s :: stages).map inverse).reverse
          = run s a >>= fun b => through (stages.map run) b >>= through ((s :: stages).map inverse).reverse :=
            bind_assoc _ _ _
        _ = run s a >>= fun b =>
            (through (stages.map run) b >>= through (stages.map inverse).reverse) >>= inverse s := by
            simp only [bind_assoc, hlast]
        _ = run s a >>= fun b => pure b >>= inverse s := by simp only [hstages _]
        _ = pure a := by
            simp only [pure_bind]
            exact hs a

end

/-! ## Failing stages -/

section

variable {ε W α : Type u} {stages : List (α → EStateM ε W α)} {a : α} {e : ε} {w w' : W}

/-- The stage that fails, the value and the world that reach it. None of the stages after it has run, whatever
they do. -/
theorem through_eq_error_iff : through stages a w = .error e w' ↔
    ∃ (before : List (α → EStateM ε W α)) (stage : α → EStateM ε W α) (after : List (α → EStateM ε W α)) (b : α)
      (v : W), stages = before ++ stage :: after ∧
      through before a w = .ok b v ∧ stage b v = .error e w' := by
  constructor
  · intro h
    induction stages generalizing a w with
    | nil => cases h
    | cons stage stages ih =>
        cases hstage : stage a w with
        | error e' v =>
            have hstop : through (stage :: stages) a w = .error e' v := by
              rw [through_cons]
              simp only [bind, EStateM.bind, hstage]
            refine ⟨[], stage, stages, a, w, rfl, rfl, ?_⟩
            rw [hstage, ← hstop, h]
        | ok b v =>
            have hgo : through (stage :: stages) a w = through stages b v := by
              rw [through_cons]
              simp only [bind, EStateM.bind, hstage]
            obtain ⟨before, stage', after, c, v', hstages, hbefore, hfails⟩ := ih (hgo.symm.trans h)
            refine ⟨stage :: before, stage', after, c, v', by rw [hstages, List.cons_append], ?_, hfails⟩
            rw [through_cons]
            simp only [bind, EStateM.bind, hstage, hbefore]
  · rintro ⟨before, stage, after, b, v, rfl, hbefore, hfails⟩
    rw [through_append]
    simp only [bind, EStateM.bind, hbefore, through_cons, hfails]

end

end Stages
