import Mathlib.Logic.Function.Basic

/-!
# Names

Some of the indices have a name. The names are distinct where no two indices have the same one. An index that has
none may get one, and the names stay distinct exactly if the new one is not in use.
-/

namespace Names

universe u v

variable {ι : Type u} {α : Type v} {f : ι → Option α} {i j : ι} {a b : α}

def Distinct (f : ι → Option α) : Prop := ∀ i j a, f i = some a → f j = some a → i = j

def Used (f : ι → Option α) (a : α) : Prop := ∃ i, f i = some a

theorem Distinct.eq_some_iff (hf : Distinct f) (hi : f i = some a) : f j = some a ↔ j = i := by
  constructor
  · intro hj
    exact hf j i a hj hi
  · rintro rfl
    exact hi

/-! ## A new name -/

variable [DecidableEq ι]

theorem update_eq_some : Function.update f i (some a) j = some b ↔ (j = i ∧ a = b) ∨ (j ≠ i ∧ f j = some b) := by
  by_cases hij : j = i
  · subst hij
    simp
  · simp [hij]

theorem used_update (hi : f i = none) : Used (Function.update f i (some a)) b ↔ a = b ∨ Used f b := by
  unfold Used
  simp only [update_eq_some]
  constructor
  · rintro ⟨j, ⟨_, hab⟩ | ⟨_, hj⟩⟩
    · exact .inl hab
    · exact .inr ⟨j, hj⟩
  · rintro (hab | ⟨j, hj⟩)
    · exact ⟨i, .inl ⟨rfl, hab⟩⟩
    · have hne : j ≠ i := by
        rintro rfl
        rw [hi] at hj
        cases hj
      exact ⟨j, .inr ⟨hne, hj⟩⟩

theorem distinct_update (hf : Distinct f) (hi : f i = none) :
    Distinct (Function.update f i (some a)) ↔ ¬ Used f a := by
  constructor
  · rintro hdistinct ⟨j, hj⟩
    have hne : j ≠ i := by
      rintro rfl
      rw [hi] at hj
      cases hj
    refine hne (hdistinct j i a ?_ ?_)
    · exact update_eq_some.mpr (.inr ⟨hne, hj⟩)
    · exact update_eq_some.mpr (.inl ⟨rfl, rfl⟩)
  · intro hnew j k b hj hk
    rcases update_eq_some.mp hj with ⟨hji, hjb⟩ | ⟨_, hjb⟩ <;>
      rcases update_eq_some.mp hk with ⟨hki, hkb⟩ | ⟨_, hkb⟩
    · rw [hji, hki]
    · exact absurd ⟨k, hjb ▸ hkb⟩ hnew
    · exact absurd ⟨j, hkb ▸ hjb⟩ hnew
    · exact hf j k b hjb hkb

end Names
