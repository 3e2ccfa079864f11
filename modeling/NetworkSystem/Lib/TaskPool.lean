import NetworkSystem.Lib.Steps
import Mathlib.Algebra.Order.BigOperators.Group.List
import Mathlib.Algebra.Order.Group.Nat
import Mathlib.Algebra.Ring.Int.Defs
import Mathlib.Algebra.GroupWithZero.Nat
import Mathlib.Tactic.Push

/-!
# Tasks that share a state

A pool is a shared state and a list of tasks, each with its own program counter. A program says where a
task starts and what one atomic step of a task does to the shared state and to the task. The steps of
all tasks interleave in any order: an event either starts a task or names the task that moves.

Two rules carry the invariants of such systems.

* `Program.conserves`: a quantity that every single step keeps, summed over the shared state and all
  tasks, is kept by the pool.
* `Program.forall_tasks`: a property of each task that its own steps keep and that the steps of the
  others do not disturb holds of every task of the pool.
-/

namespace TaskPool

universe u v w x y

variable {σ : Type u} {τ : Type v} {κ : Type w} {ε : Type x}

/-- A shared state and the tasks that use it. A task keeps its place in the list for ever. -/
structure Pool (σ : Type u) (τ : Type v) where
  shared : σ
  tasks : List τ
  deriving Repr, DecidableEq

/-- An event of the pool: a new task starts, or the task at a place takes a step. -/
inductive Event (κ : Type w) (ε : Type x) where
  | spawn (k : κ)
  | act (i : Nat) (e : ε)
  deriving Repr, DecidableEq

/-- The task at a place takes these steps one after another. -/
def acts (i : Nat) (es : List ε) : List (Event κ ε) := es.map (.act i)

/-- What the tasks of a pool run. -/
structure Program (σ : Type u) (τ : Type v) (κ : Type w) (ε : Type x) where
  start : κ → τ
  act : σ → τ → ε → Option (σ × τ)

def Program.step (P : Program σ τ κ ε) (p : Pool σ τ) : Event κ ε → Option (Pool σ τ)
  | .spawn k => some { p with tasks := p.tasks ++ [P.start k] }
  | .act i e =>
      (p.tasks[i]?).bind fun t =>
        (P.act p.shared t e).map fun r => { shared := r.1, tasks := p.tasks.set i r.2 }

/-! ## Inversion -/

variable {P : Program σ τ κ ε} {p p' : Pool σ τ}

theorem Program.step_spawn {k : κ} :
    P.step p (.spawn k) = some { p with tasks := p.tasks ++ [P.start k] } := rfl

theorem Program.step_act {i : Nat} {e : ε} :
    P.step p (.act i e) = some p' ↔ ∃ t s' t', p.tasks[i]? = some t ∧
      P.act p.shared t e = some (s', t') ∧ p' = { shared := s', tasks := p.tasks.set i t' } := by
  constructor
  · intro h
    simp only [Program.step, Option.bind_eq_some_iff, Option.map_eq_some_iff] at h
    obtain ⟨t, ht, ⟨s', t'⟩, ha, rfl⟩ := h
    exact ⟨t, s', t', ht, ha, rfl⟩
  · rintro ⟨t, s', t', ht, ha, rfl⟩
    simp [Program.step, ht, ha]

/-! ## Sums over the tasks -/

section Sum

variable {M : Type y}

theorem sum_map_set [AddCommMonoid M] (g : τ → M) {t : τ} (t' : τ) :
    ∀ {l : List τ} {i : Nat}, l[i]? = some t →
      ((l.set i t').map g).sum + g t = (l.map g).sum + g t'
  | [], i, h => by simp at h
  | u :: l, 0, h => by
      simp only [List.getElem?_cons_zero, Option.some.injEq] at h
      subst h
      simp only [List.set_cons_zero, List.map_cons, List.sum_cons]
      rw [add_right_comm, add_comm (g t'), add_assoc, add_comm (g t'), ← add_assoc]
  | u :: l, i + 1, h => by
      simp only [List.getElem?_cons_succ] at h
      simp only [List.set_cons_succ, List.map_cons, List.sum_cons]
      rw [add_assoc, sum_map_set g t' h, add_assoc]

theorem sum_map_set_of_eq [AddCommMonoid M] [IsCancelAdd M] (g : τ → M) {l : List τ} {i : Nat}
    {t t' : τ} (hi : l[i]? = some t) (h : g t' = g t) : ((l.set i t').map g).sum = (l.map g).sum := by
  have hset := sum_map_set g t' hi
  rw [h] at hset
  exact add_right_cancel hset

def Pool.total [AddCommMonoid M] (g : τ → M) (p : Pool σ τ) : M := (p.tasks.map g).sum

theorem Pool.total_add [AddCommMonoid M] (g h : τ → M) (p : Pool σ τ) :
    p.total (fun t => g t + h t) = p.total g + p.total h :=
  List.sum_map_add

/-- What a new task brings. -/
def Event.brings [Zero M] (P : Program σ τ κ ε) (g : τ → M) : Event κ ε → M
  | .spawn k => g (P.start k)
  | .act _ _ => 0

def Event.loses [Zero M] (lost : ε → M) : Event κ ε → M
  | .spawn _ => 0
  | .act _ e => lost e

/-- A quantity that each step of a task keeps but for what its event loses is kept by the pool but for that, and
for what new tasks bring. -/
theorem Program.accrues [AddCommMonoid M] [IsCancelAdd M] {f : σ → M} {g : τ → M} {l : ε → M}
    {e : Event κ ε} (hact : ∀ i a s t s' t', e = .act i a → P.act s t a = some (s', t') →
      f s' + g t' + l a = f s + g t) (h : P.step p e = some p') :
    f p'.shared + p'.total g + e.loses l = f p.shared + p.total g + e.brings P g := by
  cases e with
  | spawn k =>
      rw [Program.step_spawn] at h
      cases h
      simp [Pool.total, Event.loses, Event.brings, add_assoc]
  | act i e =>
      obtain ⟨t, s', t', ht, ha, rfl⟩ := Program.step_act.mp h
      have hset := sum_map_set g t' ht
      have hstep := hact _ _ _ _ _ _ rfl ha
      apply add_right_cancel (b := g t)
      calc f s' + ((p.tasks.set i t').map g).sum + l e + g t
          = f s' + g t' + l e + (p.tasks.map g).sum := by
            rw [add_right_comm _ (l e), add_assoc (f s'), hset, add_comm _ (g t'), ← add_assoc,
              add_right_comm]
        _ = f p.shared + p.total g + 0 + g t := by
            rw [hstep, add_zero, add_assoc, add_comm (g t), ← add_assoc]; rfl

/-- A quantity that each step of a task keeps and that a new task does not change is kept by the pool. -/
theorem Program.conserves [AddCommMonoid M] [IsCancelAdd M] {f : σ → M} {g : τ → M}
    (hact : ∀ s t e s' t', P.act s t e = some (s', t') → f s' + g t' = f s + g t)
    (hstart : ∀ k, g (P.start k) = 0) {e : Event κ ε} (h : P.step p e = some p') :
    f p'.shared + p'.total g = f p.shared + p.total g := by
  have haccrues := Program.accrues (l := fun _ => 0)
    (fun _ _ _ _ _ _ _ ha => (add_zero _).trans (hact _ _ _ _ _ ha)) h
  cases e with
  | spawn k => simpa [Event.loses, Event.brings, hstart k] using haccrues
  | act i e => simpa [Event.loses, Event.brings] using haccrues

section Ledger

variable [AddCommMonoid M] [PartialOrder M] [CanonicallyOrderedAdd M] {f : σ → M} {g : τ → M}

theorem le_total_of_mem [IsOrderedAddMonoid M] (g : τ → M) {t : τ} (h : t ∈ p.tasks) :
    g t ≤ p.total g :=
  List.le_sum_of_mem (List.mem_map_of_mem h)

/-- Two tasks bring no more than all of them. -/
theorem add_le_total [IsOrderedAddMonoid M] (g : τ → M) {i j : Nat} {t u : τ} (ht : p.tasks[i]? = some t)
    (hu : p.tasks[j]? = some u) (hne : j ≠ i) : g t + g u ≤ p.total g := by
  obtain ⟨hi, rfl⟩ := List.getElem?_eq_some_iff.mp ht
  have hmem : u ∈ p.tasks.eraseIdx i := List.mem_eraseIdx_iff_getElem?.mpr ⟨j, hne, hu⟩
  calc g p.tasks[i] + g u ≤ g p.tasks[i] + ((p.tasks.eraseIdx i).map g).sum := by
        gcongr
        exact List.le_sum_of_mem (List.mem_map_of_mem hmem)
    _ = p.total g := ((List.getElem_cons_eraseIdx_perm hi).map g).sum_eq

variable [IsOrderedCancelAddMonoid M]

theorem Program.bounded
    (hact : ∀ s t e s' t', P.act s t e = some (s', t') → f s' + g t ≤ f s + g t')
    {e : Event κ ε} (h : P.step p e = some p') (hb : f p.shared ≤ p.total g) :
    f p'.shared ≤ p'.total g := by
  cases e with
  | spawn k =>
      rw [Program.step_spawn] at h
      cases h
      calc f p.shared ≤ p.total g := hb
        _ ≤ p.total g + g (P.start k) := le_self_add
        _ = _ := by simp [Pool.total]
  | act i e =>
      obtain ⟨t, s', t', ht, ha, rfl⟩ := Program.step_act.mp h
      apply le_of_add_le_add_right (a := g t)
      calc f s' + g t ≤ f p.shared + g t' := hact _ _ _ _ _ ha
        _ ≤ p.total g + g t' := by gcongr
        _ = _ := (sum_map_set g t' ht).symm

theorem Program.accounts
    (hact : ∀ s t e s' t', g t ≤ f s → P.act s t e = some (s', t') → f s' + g t = f s + g t')
    (hstart : ∀ k, g (P.start k) = 0) {e : Event κ ε} (h : P.step p e = some p')
    (heq : f p.shared = p.total g) : f p'.shared = p'.total g := by
  cases e with
  | spawn k =>
      rw [Program.step_spawn] at h
      cases h
      simpa [Pool.total, hstart k] using heq
  | act i e =>
      obtain ⟨t, s', t', ht, ha, rfl⟩ := Program.step_act.mp h
      have hle : g t ≤ f p.shared := heq ▸ le_total_of_mem g (List.mem_of_getElem? ht)
      apply add_right_cancel (b := g t)
      calc f s' + g t = f p.shared + g t' := hact _ _ _ _ _ hle ha
        _ = p.total g + g t' := by rw [heq]
        _ = _ := (sum_map_set g t' ht).symm

end Ledger

/-- The tasks that are so, counted. -/
theorem Pool.total_eq_countP (b : τ → Bool) (p : Pool σ τ) :
    p.total (fun t => (b t).toNat) = p.tasks.countP b := by
  unfold Pool.total
  induction p.tasks with
  | nil => rfl
  | cons t tasks ih =>
      rw [List.map_cons, List.sum_cons, ih, List.countP_cons]
      cases b t <;> simp only [Bool.toNat_true, Bool.toNat_false, if_true, Bool.false_eq_true, if_false] <;> omega

theorem Pool.total_eq_zero {b : τ → Bool} (h : ∀ t ∈ p.tasks, b t = false) :
    p.total (fun t => (b t).toNat) = 0 := by
  rw [Pool.total_eq_countP, List.countP_eq_zero]
  intro t ht
  rw [h t ht]
  exact Bool.false_ne_true

theorem exists_of_total_pos (g : τ → Nat) (h : 0 < p.total g) : ∃ t ∈ p.tasks, 0 < g t := by
  by_contra hne
  push Not at hne
  have hzero : ∀ x ∈ p.tasks.map g, x = 0 := by
    intro x hx
    obtain ⟨t, ht, rfl⟩ := List.mem_map.mp hx
    have := hne t ht; omega
  have : p.total g = 0 := List.sum_eq_zero_iff_forall_eq_nat.mpr hzero
  omega

end Sum

/-! ## Properties of every task -/

theorem mem_set_of_ne {l : List τ} {i : Nat} {t t' u : τ} (ht : l[i]? = some t) (hu : u ∈ l)
    (hne : u ≠ t) : u ∈ l.set i t' := by
  obtain ⟨j, hj⟩ := List.getElem?_of_mem hu
  have hij : i ≠ j := by
    rintro rfl
    exact hne (Option.some.inj (hj.symm.trans ht))
  exact List.mem_of_getElem? ((List.getElem?_set_ne hij).trans hj)

theorem mem_set_of_mem_eraseIdx {l : List τ} {i : Nat} {t' u : τ} (hu : u ∈ l.eraseIdx i) :
    u ∈ l.set i t' := by
  obtain ⟨j, hji, hj⟩ := List.mem_eraseIdx_iff_getElem?.mp hu
  exact List.mem_of_getElem? ((List.getElem?_set_ne hji.symm).trans hj)

theorem mem_of_mem_set {l : List τ} {i : Nat} {t u : τ} (hu : u ∈ l.set i t) (hne : u ≠ t) : u ∈ l :=
  (List.mem_or_eq_of_mem_set hu).resolve_right hne

theorem getElem?_set_cases {l : List τ} {i j : Nat} {t u : τ} (h : (l.set i t)[j]? = some u) :
    (i = j ∧ u = t) ∨ (i ≠ j ∧ l[j]? = some u) := by
  by_cases hij : i = j
  · subst hij
    have hlt : i < (l.set i t).length := (List.getElem?_eq_some_iff.mp h).1
    rw [List.getElem?_set_self (by simpa using hlt)] at h
    exact Or.inl ⟨rfl, (Option.some.inj h).symm⟩
  · rw [List.getElem?_set_ne hij] at h
    exact Or.inr ⟨hij, h⟩

theorem getElem?_snoc_cases {l : List τ} {j : Nat} {t u : τ} (h : (l ++ [t])[j]? = some u) :
    l[j]? = some u ∨ (j = l.length ∧ u = t) := by
  rw [List.getElem?_append] at h
  split at h
  · exact Or.inl h
  · rename_i hge
    have hlen := (List.getElem?_eq_some_iff.mp h).1
    rw [List.length_singleton] at hlen
    exact Or.inr ⟨by omega, List.mem_singleton.mp (List.mem_of_getElem? h)⟩

/-- What holds of every task at its place holds after a task is replaced by another of which it holds there. -/
theorem forall_getElem?_set {Q : Nat → τ → Prop} {l : List τ} {i : Nat} {t : τ}
    (hl : ∀ (j : Nat) u, l[j]? = some u → Q j u) (ht : Q i t) :
    ∀ (j : Nat) u, (l.set i t)[j]? = some u → Q j u := by
  intro j u hj
  rcases getElem?_set_cases hj with ⟨rfl, rfl⟩ | ⟨_, hj⟩
  · exact ht
  · exact hl j u hj

theorem forall_getElem?_snoc {Q : Nat → τ → Prop} {l : List τ} {t : τ}
    (hl : ∀ (j : Nat) u, l[j]? = some u → Q j u) (ht : Q l.length t) :
    ∀ (j : Nat) u, (l ++ [t])[j]? = some u → Q j u := by
  intro j u hj
  rcases getElem?_snoc_cases hj with hj | ⟨rfl, rfl⟩
  · exact hl j u hj
  · exact ht

/-- A property of each task that its own steps keep, that the steps of the others do not disturb and
that a new task has, is kept by the pool. -/
theorem Program.forall_tasks {I : σ → τ → Prop}
    (hown : ∀ s t e s' t', P.act s t e = some (s', t') → I s t → I s' t')
    (hother : ∀ s t e s' t' u, P.act s t e = some (s', t') → I s t → I s u → I s' u)
    (hstart : ∀ s k, I s (P.start k)) {e : Event κ ε} (h : P.step p e = some p')
    (hI : ∀ t ∈ p.tasks, I p.shared t) : ∀ t ∈ p'.tasks, I p'.shared t := by
  cases e with
  | spawn k =>
      rw [Program.step_spawn] at h
      cases h
      intro t ht
      rcases List.mem_append.mp ht with ht | ht
      · exact hI t ht
      · simp only [List.mem_singleton] at ht
        subst ht; exact hstart _ k
  | act i e =>
      obtain ⟨t, s', t', ht, ha, rfl⟩ := Program.step_act.mp h
      intro u hu
      have ht' := hI t (List.mem_of_getElem? ht)
      rcases List.mem_or_eq_of_mem_set hu with hu | rfl
      · exact hother _ _ _ _ _ _ ha ht' (hI u hu)
      · exact hown _ _ _ _ _ ha ht'

theorem Program.shared_invariant {I : σ → Prop}
    (hact : ∀ s t e s' t', P.act s t e = some (s', t') → I s → I s') {e : Event κ ε}
    (h : P.step p e = some p') (hI : I p.shared) : I p'.shared := by
  cases e with
  | spawn k => rw [Program.step_spawn] at h; cases h; exact hI
  | act i e =>
      obtain ⟨t, s', t', _, ha, rfl⟩ := Program.step_act.mp h
      exact hact _ _ _ _ _ ha hI

/-! ## The tasks of one kind -/

section Part

variable {τ' : Type y}

theorem filterMap_set_none {f : τ → Option τ'} {l : List τ} {i : Nat} {t t' : τ} (ht : l[i]? = some t)
    (hf : f t = none) (hf' : f t' = none) : (l.set i t').filterMap f = l.filterMap f := by
  induction l generalizing i with
  | nil => rfl
  | cons u l ih =>
      cases i with
      | zero =>
          obtain rfl : u = t := by simpa using ht
          rw [List.set_cons_zero, List.filterMap_cons_none hf', List.filterMap_cons_none hf]
      | succ i =>
          rw [List.set_cons_succ, List.filterMap_cons, List.filterMap_cons, ih (by simpa using ht)]

/-- The task is one of its kind, and a step of it is a step among its kind. -/
theorem filterMap_set_some {f : τ → Option τ'} {l : List τ} {i : Nat} {t t' : τ} {u u' : τ'}
    (ht : l[i]? = some t) (hf : f t = some u) (hf' : f t' = some u') :
    ∃ j, (l.filterMap f)[j]? = some u ∧ (l.set i t').filterMap f = (l.filterMap f).set j u' := by
  induction l generalizing i with
  | nil => simp at ht
  | cons v l ih =>
      cases i with
      | zero =>
          obtain rfl : v = t := by simpa using ht
          refine ⟨0, ?_, ?_⟩
          · rw [List.filterMap_cons_some hf]; rfl
          · rw [List.set_cons_zero, List.filterMap_cons_some hf', List.filterMap_cons_some hf, List.set_cons_zero]
      | succ i =>
          obtain ⟨j, hj, hset⟩ := ih (by simpa using ht)
          rw [List.set_cons_succ]
          cases hv : f v with
          | none =>
              refine ⟨j, ?_, ?_⟩
              · rw [List.filterMap_cons_none hv]; exact hj
              · rw [List.filterMap_cons_none hv, List.filterMap_cons_none hv, hset]
          | some x =>
              refine ⟨j + 1, ?_, ?_⟩
              · rw [List.filterMap_cons_some hv]; exact hj
              · rw [List.filterMap_cons_some hv, List.filterMap_cons_some hv, List.set_cons_succ, hset]

end Part

end TaskPool
