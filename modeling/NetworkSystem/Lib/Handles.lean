import NetworkSystem.Lib.Steps

/-!
# Counted handles

Cells that count the handles on them. A handle is a cell's number, and `none` once it is released; a counter
goes up when a handle on its cell is made and down when one is released. `pred` is what going down does,
which at zero may be anything. The counters are exact if every counter is the number of handles on its cell.
-/

namespace Handles

structure Cells where
  counts : List Nat
  handles : List (Option Nat)
  deriving Repr, DecidableEq

inductive Event where
  | alloc
  | acquire (r : Nat)
  | release (i : Nat)
  deriving Repr, DecidableEq

def step (pred : Nat → Nat) (s : Cells) : Event → Option Cells
  | .alloc => some { s with counts := s.counts ++ [0] }
  | .acquire r =>
      if r < s.counts.length then some ⟨s.counts.modify r (· + 1), s.handles ++ [some r]⟩ else none
  | .release i =>
      match s.handles[i]? with
      | some (some r) => some ⟨s.counts.modify r pred, s.handles.set i none⟩
      | _ => none

theorem step_acquire {pred : Nat → Nat} {s : Cells} {r : Nat} (hr : r < s.counts.length) :
    step pred s (.acquire r) = some ⟨s.counts.modify r (· + 1), s.handles ++ [some r]⟩ := if_pos hr

theorem step_release {pred : Nat → Nat} {s : Cells} {i r : Nat} (hi : s.handles[i]? = some (some r)) :
    step pred s (.release i) = some ⟨s.counts.modify r pred, s.handles.set i none⟩ := by
  simp only [step, hi]

namespace Cells

def live (s : Cells) (r : Nat) : Nat := s.handles.count (some r)

structure Exact (s : Cells) : Prop where
  counted : ∀ r n, s.counts[r]? = some n → n = s.live r
  bound : ∀ r, some r ∈ s.handles → r < s.counts.length

variable {pred : Nat → Nat} {s s' : Cells} {i r : Nat}

/-- Cells on which nothing is held yet. -/
theorem Exact.fresh (n : Nat) : Exact ⟨List.replicate n 0, []⟩ where
  counted r m hm := by
    rw [List.getElem?_replicate] at hm
    split at hm
    · cases hm
      rfl
    · cases hm
  bound r hr := by simp at hr

theorem live_pos (hi : s.handles[i]? = some (some r)) : 0 < s.live r :=
  List.count_pos_iff.mpr (List.mem_of_getElem? hi)

/-- A handle that is held is one that its cell counts. -/
theorem Exact.count_pos (h : s.Exact) (hi : s.handles[i]? = some (some r)) : ∃ n, s.counts[r]? = some (n + 1) := by
  have hbound := h.bound r (List.mem_of_getElem? hi)
  have hcount := h.counted r _ (List.getElem?_eq_getElem hbound)
  have hpos := live_pos hi
  exact ⟨s.counts[r] - 1, by rw [List.getElem?_eq_getElem hbound, Nat.sub_add_cancel (by omega)]⟩

/-! ## What each event does to the number of handles -/

theorem live_acquire {r' : Nat} : (Cells.mk (s.counts.modify r (· + 1)) (s.handles ++ [some r])).live r' =
    if r = r' then s.live r' + 1 else s.live r' := by
  unfold live
  rw [List.count_append]
  by_cases heq : r = r'
  · subst heq
    simp
  · simp [heq]

theorem live_release {r' : Nat} (hi : s.handles[i]? = some (some r)) :
    (Cells.mk (s.counts.modify r pred) (s.handles.set i none)).live r' =
      if r = r' then s.live r' - 1 else s.live r' := by
  obtain ⟨hlt, hget⟩ := List.getElem?_eq_some_iff.mp hi
  unfold live
  rw [List.count_set hlt, hget]
  by_cases heq : r = r'
  · subst heq
    simp
  · simp [heq]

/-! ## The counters stay exact -/

theorem Exact.alloc (h : s.Exact) : Exact { s with counts := s.counts ++ [0] } where
  counted r n hn := by
    rw [List.getElem?_append] at hn
    split at hn
    · exact h.counted r n hn
    · rename_i hge
      have hfree : some r ∉ s.handles := fun hr => hge (h.bound r hr)
      rw [List.getElem?_singleton] at hn
      split at hn
      · cases hn
        exact (List.count_eq_zero.mpr hfree).symm
      · cases hn
  bound r hr := by
    have := h.bound r hr
    rw [List.length_append]
    omega

theorem Exact.acquire (h : s.Exact) (hr : r < s.counts.length) :
    Exact ⟨s.counts.modify r (· + 1), s.handles ++ [some r]⟩ where
  counted r' n hn := by
    rw [live_acquire]
    rw [List.getElem?_modify] at hn
    obtain ⟨m, hm, rfl⟩ := Option.map_eq_some_iff.mp hn
    rw [h.counted r' m hm]
  bound r' hr' := by
    rw [List.length_modify]
    rcases List.mem_append.mp hr' with hr' | hr'
    · exact h.bound r' hr'
    · simp only [List.mem_singleton, Option.some.injEq] at hr'
      rw [hr']
      exact hr

/-- A counter that goes down is above zero, where `pred` undoes one count. -/
theorem Exact.release (h : s.Exact) (hpred : ∀ n, pred (n + 1) = n) (hi : s.handles[i]? = some (some r)) :
    Exact ⟨s.counts.modify r pred, s.handles.set i none⟩ where
  counted r' n hn := by
    rw [live_release hi]
    rw [List.getElem?_modify] at hn
    obtain ⟨m, hm, rfl⟩ := Option.map_eq_some_iff.mp hn
    have hcount := h.counted r' m hm
    by_cases heq : r = r'
    · obtain ⟨k, hk⟩ := h.count_pos hi
      rw [heq, hm, Option.some.injEq] at hk
      rw [if_pos heq, if_pos heq, ← hcount, hk, hpred, Nat.add_sub_cancel]
    · rw [if_neg heq, if_neg heq, hcount]
  bound r' hr' := by
    rw [List.length_modify]
    rcases List.mem_or_eq_of_mem_set hr' with hr' | hr'
    · exact h.bound r' hr'
    · cases hr'

theorem Exact.step {e : Event} (h : s.Exact) (hpred : ∀ n, pred (n + 1) = n)
    (hs : Handles.step pred s e = some s') : s'.Exact := by
  cases e with
  | alloc =>
      cases hs
      exact h.alloc
  | acquire r =>
      simp only [Handles.step] at hs
      split at hs
      · rename_i hr
        cases hs
        exact h.acquire hr
      · cases hs
  | release i =>
      simp only [Handles.step] at hs
      split at hs
      · rename_i r hi
        cases hs
        exact h.release hpred hi
      · cases hs

end Cells

end Handles
