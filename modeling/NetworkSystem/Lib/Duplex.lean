import NetworkSystem.Lib.Steps

/-!
# Two ends of a connection

An end takes steps of its own and puts items on the channel to the other end; what it has put there only grows. What
arrives is taken in at any time, and a step keeps what has arrived. A pair joins two ends: what one of them writes in
a step arrives at the other.

Whatever the two ends do, each has got exactly what the other has written (`Joined`), and a property that the steps
of one end and every arrival keep is a property of that end in the pair (`invariant_left`, `invariant_right`).
-/

universe u v w x y

namespace Duplex

open Steps

structure Endpoint (σ : Type u) (ε : Type v) (β : Type w) where
  step : σ → ε → Option σ
  /-- What the end has put on its channel. -/
  written : σ → List β
  /-- What has arrived at the end. -/
  arrived : σ → List β
  deliver : σ → List β → σ
  written_step : ∀ {s e s'}, step s e = some s' → written s <+: written s'
  arrived_step : ∀ {s e s'}, step s e = some s' → arrived s' = arrived s
  written_deliver : ∀ s items, written (deliver s items) = written s
  arrived_deliver : ∀ s items, arrived (deliver s items) = arrived s ++ items

structure Pair (σ : Type u) (τ : Type v) where
  left : σ
  right : τ
  deriving Repr, DecidableEq

inductive Event (ε : Type u) (φ : Type v) where
  | left (e : ε)
  | right (e : φ)
  deriving Repr, DecidableEq

variable {σ : Type u} {τ : Type v} {ε : Type w} {φ : Type x} {β : Type y}

/-- What the end has written since it was in state `s`. -/
def Endpoint.since (A : Endpoint σ ε β) (s s' : σ) : List β := (A.written s').drop (A.written s).length

def step (A : Endpoint σ ε β) (B : Endpoint τ φ β) (p : Pair σ τ) : Event ε φ → Option (Pair σ τ)
  | .left e => (A.step p.left e).map fun s => ⟨s, B.deliver p.right (A.since p.left s)⟩
  | .right e => (B.step p.right e).map fun t => ⟨A.deliver p.left (B.since p.right t), t⟩

variable {A : Endpoint σ ε β} {B : Endpoint τ φ β} {p p' : Pair σ τ}

/-! ## Inversion -/

theorem step_left {e : ε} : step A B p (.left e) = some p' ↔
    ∃ s, A.step p.left e = some s ∧ p' = ⟨s, B.deliver p.right (A.since p.left s)⟩ := by
  rw [step, Option.map_eq_some_iff]
  exact ⟨fun ⟨s, hs, he⟩ => ⟨s, hs, he.symm⟩, fun ⟨s, hs, he⟩ => ⟨s, hs, he.symm⟩⟩

theorem step_right {e : φ} : step A B p (.right e) = some p' ↔
    ∃ t, B.step p.right e = some t ∧ p' = ⟨A.deliver p.left (B.since p.right t), t⟩ := by
  rw [step, Option.map_eq_some_iff]
  exact ⟨fun ⟨t, ht, he⟩ => ⟨t, ht, he.symm⟩, fun ⟨t, ht, he⟩ => ⟨t, ht, he.symm⟩⟩

theorem Endpoint.written_since {s s' : σ} {e : ε} (h : A.step s e = some s') :
    A.written s ++ A.since s s' = A.written s' := by
  obtain ⟨rest, hrest⟩ := A.written_step h
  rw [Endpoint.since, ← hrest, List.drop_left]

/-! ## What holds of a pair -/

/-- What has arrived at each end is what the other end has written. -/
structure Joined (A : Endpoint σ ε β) (B : Endpoint τ φ β) (p : Pair σ τ) : Prop where
  right : B.arrived p.right = A.written p.left
  left : A.arrived p.left = B.written p.right

theorem Joined.step {e : Event ε φ} (h : Joined A B p) (hs : Duplex.step A B p e = some p') : Joined A B p' := by
  cases e with
  | left e =>
      obtain ⟨s, hown, rfl⟩ := step_left.mp hs
      constructor
      · rw [B.arrived_deliver, h.right, Endpoint.written_since hown]
      · rw [A.arrived_step hown, h.left, B.written_deliver]
  | right e =>
      obtain ⟨t, ht, rfl⟩ := step_right.mp hs
      constructor
      · rw [B.arrived_step ht, h.right, A.written_deliver]
      · rw [A.arrived_deliver, h.left, Endpoint.written_since ht]

theorem Joined.of_run {es : List (Event ε φ)} (h : Joined A B p) (hr : run (Duplex.step A B) p es = some p') :
    Joined A B p' :=
  run_invariant (fun _ _ _ hj hs => hj.step hs) h hr

/-- The condition on the events of each end, for the events of a pair. -/
def OnLeft (C : σ → ε → Prop) (p : Pair σ τ) : Event ε φ → Prop
  | .left e => C p.left e
  | .right _ => True

def OnRight (D : τ → φ → Prop) (p : Pair σ τ) : Event ε φ → Prop
  | .left _ => True
  | .right e => D p.right e

instance {C : σ → ε → Prop} [∀ s e, Decidable (C s e)] (p : Pair σ τ) :
    (e : Event ε φ) → Decidable (OnLeft C p e)
  | .left e => inferInstanceAs (Decidable (C p.left e))
  | .right _ => inferInstanceAs (Decidable True)

instance {D : τ → φ → Prop} [∀ t e, Decidable (D t e)] (p : Pair σ τ) :
    (e : Event ε φ) → Decidable (OnRight D p e)
  | .left _ => inferInstanceAs (Decidable True)
  | .right e => inferInstanceAs (Decidable (D p.right e))

section Invariant

variable {I : σ → Prop} {J : τ → Prop} {C : σ → ε → Prop} {D : τ → φ → Prop}

/-- What the steps of the left end and every arrival keep, a pair keeps. -/
theorem invariant_left (hstep : ∀ s e s', I s → C s e → A.step s e = some s' → I s')
    (harrive : ∀ s items, I s → I (A.deliver s items)) {e : Event ε φ} (hI : I p.left) (hC : OnLeft C p e)
    (hs : step A B p e = some p') : I p'.left := by
  cases e with
  | left e =>
      obtain ⟨s, hown, rfl⟩ := step_left.mp hs
      exact hstep _ _ _ hI hC hown
  | right e =>
      obtain ⟨t, _, rfl⟩ := step_right.mp hs
      exact harrive _ _ hI

theorem invariant_right (hstep : ∀ t e t', J t → D t e → B.step t e = some t' → J t')
    (harrive : ∀ t items, J t → J (B.deliver t items)) {e : Event ε φ} (hJ : J p.right) (hD : OnRight D p e)
    (hs : step A B p e = some p') : J p'.right := by
  cases e with
  | left e =>
      obtain ⟨s, _, rfl⟩ := step_left.mp hs
      exact harrive _ _ hJ
  | right e =>
      obtain ⟨t, ht, rfl⟩ := step_right.mp hs
      exact hstep _ _ _ hJ hD ht

theorem run_left (hstep : ∀ s e s', I s → C s e → A.step s e = some s' → I s')
    (harrive : ∀ s items, I s → I (A.deliver s items)) {es : List (Event ε φ)} (hI : I p.left)
    (hC : Along (step A B) (OnLeft C) p es) (hr : run (step A B) p es = some p') : I p'.left :=
  run_preserves (I := fun q => I q.left) (fun _ _ _ hI hC hs => invariant_left hstep harrive hI hC hs) hI hC hr

theorem run_right (hstep : ∀ t e t', J t → D t e → B.step t e = some t' → J t')
    (harrive : ∀ t items, J t → J (B.deliver t items)) {es : List (Event ε φ)} (hJ : J p.right)
    (hD : Along (step A B) (OnRight D) p es) (hr : run (step A B) p es = some p') : J p'.right :=
  run_preserves (I := fun q => J q.right) (fun _ _ _ hJ hD hs => invariant_right hstep harrive hJ hD hs) hJ hD hr

end Invariant

end Duplex
