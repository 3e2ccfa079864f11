import Mathlib.Algebra.GroupWithZero.Nat
import Mathlib.Data.Nat.Count
import NetworkSystem.Lib.Steps

/-!
# Rotations

A rotation visits the elements of a list in rounds, each element as often in a round as its weight says. Visit
`k` walks the list from what remains of `k` in its round, and takes the weights of the elements it passes off.
Where no element stands twice in the list, a window of whole rounds meets every element exactly as often as its
weight says, wherever the window begins.
-/

namespace Rotation

universe u

variable {α : Type u} {w : α → Nat} {l : List α} {a b : α} {i k m n : Nat}

/-- The visits of one round. -/
def total (w : α → Nat) (l : List α) : Nat := (l.map w).sum

/-- The element of visit `k` of a round. -/
def pick (w : α → Nat) : Nat → List α → Option α
  | _, [] => none
  | k, a :: l => if k < w a then some a else pick w (k - w a) l

theorem total_cons : total w (a :: l) = w a + total w l := by
  simp [total]

theorem total_one : total (fun _ => 1) l = l.length := by
  simp [total]

/-! ## The walk -/

theorem pick_eq_none : pick w k l = none ↔ total w l ≤ k := by
  induction l generalizing k with
  | nil => simp [pick, total]
  | cons a l ih =>
      unfold pick
      rw [total_cons]
      split
      · rename_i hk
        exact iff_of_false (by simp) (by omega)
      · rename_i hk
        rw [ih]
        omega

theorem exists_pick (h : k < total w l) : ∃ a, pick w k l = some a := by
  rw [← Option.ne_none_iff_exists', ne_eq, pick_eq_none]
  omega

theorem pick_mem (h : pick w k l = some a) : a ∈ l := by
  induction l generalizing k with
  | nil => cases h
  | cons b l ih =>
      unfold pick at h
      split at h
      · cases h
        exact List.mem_cons_self
      · exact List.mem_cons_of_mem _ (ih h)

/-- With weights of one the walk is the look-up by position. -/
theorem pick_one : ∀ {k : Nat} {l : List α}, pick (fun _ => 1) k l = l[k]?
  | _, [] => rfl
  | 0, _ :: _ => rfl
  | k + 1, _ :: l => by
      unfold pick
      rw [if_neg (by omega), pick_one]
      rfl

theorem pick_map {β : Type u} {f : β → α} {l : List β} :
    pick w k (l.map f) = (pick (fun b => w (f b)) k l).map f := by
  induction l generalizing k with
  | nil => rfl
  | cons b l ih =>
      simp only [List.map_cons, pick]
      split
      · rfl
      · exact ih

/-! ## One round -/

variable [DecidableEq α]

theorem count_pick_head : Nat.count (fun k => pick w k (b :: l) = some a) (w b) = if b = a then w b else 0 := by
  have hhead : ∀ k < w b, (pick w k (b :: l) = some a ↔ b = a) := by
    intro k hk
    rw [pick, if_pos hk, Option.some.injEq]
  split
  · rename_i hba
    exact Nat.count_iff_forall.mpr fun k hk => (hhead k hk).mpr hba
  · rename_i hba
    exact Nat.count_iff_forall_not.mpr fun k hk => mt (hhead k hk).mp hba

theorem count_pick_cons : Nat.count (fun k => pick w k (b :: l) = some a) (total w (b :: l)) =
    (if b = a then w b else 0) + Nat.count (fun k => pick w k l = some a) (total w l) := by
  rw [total_cons, Nat.count_add, count_pick_head]
  congr 1
  congr 1
  funext k
  rw [pick, if_neg (by omega), Nat.add_sub_cancel_left]

theorem count_pick_of_not_mem (ha : a ∉ l) : Nat.count (fun k => pick w k l = some a) m = 0 :=
  Nat.count_iff_forall_not.mpr fun _ _ h => ha (pick_mem h)

/-- A round visits an element as often as its weight says. -/
theorem count_pick (hl : l.Nodup) (ha : a ∈ l) : Nat.count (fun k => pick w k l = some a) (total w l) = w a := by
  induction l with
  | nil => cases ha
  | cons b l ih =>
      obtain ⟨hb, hl⟩ := List.nodup_cons.mp hl
      rw [count_pick_cons]
      rcases List.mem_cons.mp ha with rfl | ha
      · rw [if_pos rfl, count_pick_of_not_mem hb, Nat.add_zero]
      · have hne : b ≠ a := by
          rintro rfl
          exact hb ha
        rw [if_neg hne, ih hl ha, Nat.zero_add]

/-! ## Windows -/

section Windows

variable {p : Nat → Prop} [DecidablePred p]

/-- A window of one round, wherever it begins, counts what a round counts. -/
theorem count_round (i : Nat) : Nat.count (fun k => p ((i + k) % n)) n = Nat.count p n := by
  have hshift := Nat.count_add (fun k => p (k % n)) i n
  have hperiod := Nat.count_add' (fun k => p (k % n)) i n
  have hround : Nat.count (fun k => p (k % n)) n = Nat.count p n := by
    apply le_antisymm
    · exact Nat.count_mono_left fun k hk h => by rwa [Nat.mod_eq_of_lt hk] at h
    · exact Nat.count_mono_left fun k hk h => by rwa [Nat.mod_eq_of_lt hk]
  simp only [Nat.add_mod_right] at hperiod
  omega

theorem count_rounds (i q : Nat) : Nat.count (fun k => p ((i + k) % n)) (q * n) = q * Nat.count p n := by
  induction q with
  | zero => simp
  | succ q ih =>
      have hround := count_round (p := p) (n := n) (i + q * n)
      rw [Nat.add_mul, Nat.one_mul, Nat.count_add, ih, Nat.add_mul, Nat.one_mul, ← hround]
      congr 2
      funext k
      rw [Nat.add_assoc]

/-- A window of `m` visits counts what its whole rounds count, and what the round that it ends in adds. -/
theorem count_window (hn : 0 < n) (i m : Nat) : ∃ rest ≤ Nat.count p n,
    Nat.count (fun k => p ((i + k) % n)) m = m / n * Nat.count p n + rest ∧ (m % n = 0 → rest = 0) := by
  have hm : m / n * n + m % n = m := Nat.div_add_mod' m n
  refine ⟨Nat.count (fun k => p ((i + (m / n * n + k)) % n)) (m % n), ?_, ?_, ?_⟩
  · rw [← count_round (p := p) (n := n) (i + m / n * n)]
    simp only [Nat.add_assoc]
    exact Nat.count_monotone _ (Nat.mod_lt m hn).le
  · rw [← count_rounds i, ← Nat.count_add, hm]
  · intro hzero
    rw [hzero, Nat.count_zero]

end Windows

/-- What a window of visits brings to an element of the list. -/
theorem count_pick_window (hl : l.Nodup) (ha : a ∈ l) (hpos : 0 < total w l) (i m : Nat) :
    ∃ rest ≤ w a, Nat.count (fun k => pick w ((i + k) % total w l) l = some a) m = m / total w l * w a + rest ∧
      (m % total w l = 0 → rest = 0) := by
  have hwindow := count_window (p := fun k => pick w k l = some a) hpos i m
  rwa [count_pick hl ha] at hwindow

theorem count_map_range' {f : Nat → α} (i m : Nat) :
    ((List.range' i m).map f).count a = Nat.count (fun k => f (i + k) = a) m := by
  induction m with
  | zero => simp
  | succ m ih =>
      rw [List.range'_1_concat, List.map_append, List.count_append, ih, Nat.count_succ]
      simp [List.count_singleton]

end Rotation
