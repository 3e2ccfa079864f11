import Mathlib.Data.List.Infix

/-!
# Runs of a step function

A step function `step : σ → ε → Option σ` takes a state and an event, and refuses (`none`) the events
that the state does not allow. A run is a list of events that are taken one after another.

Two properties of a run are used throughout. `Along C s es` says that every event of the run is taken in
a state that meets `C` with that event; `Always P s es` says that every state the run goes through
meets `P`. The rule `run_preserves` is the only induction over runs that a client needs: what one step
preserves under `C`, a run preserves along `C`.

A step function that reads a clock becomes one of states with the latest reading, `clocked`: it refuses an
event whose reading is earlier.
-/

namespace Steps

universe u v w

variable {σ : Type u} {ε : Type v} {step : σ → ε → Option σ}

/-- The state after the events of the list, or `none` when one of them is refused on the way. -/
def run (step : σ → ε → Option σ) : σ → List ε → Option σ
  | s, [] => some s
  | s, e :: es => (step s e).bind fun s' => run step s' es

/-- Every event of the run is taken in a state that meets `C` with it. -/
def Along (step : σ → ε → Option σ) (C : σ → ε → Prop) (s : σ) (es : List ε) : Prop :=
  ∀ pre e post s₁, es = pre ++ e :: post → run step s pre = some s₁ → C s₁ e

/-- Every state that the run goes through, the first and the last included, meets `P`. -/
def Always (step : σ → ε → Option σ) (P : σ → Prop) (s : σ) (es : List ε) : Prop :=
  ∀ pre s₁, pre <+: es → run step s pre = some s₁ → P s₁

/-! ## Runs -/

@[simp]
theorem run_nil (s : σ) : run step s [] = some s := rfl

@[simp]
theorem run_cons (s : σ) (e : ε) (es : List ε) :
    run step s (e :: es) = (step s e).bind fun s' => run step s' es := rfl

theorem run_cons_eq_some {s s' : σ} {e : ε} {es : List ε} :
    run step s (e :: es) = some s' ↔ ∃ s₁, step s e = some s₁ ∧ run step s₁ es = some s' := by
  simp [Option.bind_eq_some_iff]

/-! ## Conditions along a run -/

variable {C D : σ → ε → Prop} {P : σ → Prop}

theorem Along.nil (s : σ) : Along step C s [] := by
  intro pre e post s₁ h
  simp at h

theorem Along.head {s : σ} {e : ε} {es : List ε} (h : Along step C s (e :: es)) : C s e :=
  h [] e es s rfl rfl

theorem Along.tail {s s₁ : σ} {e : ε} {es : List ε} (h : Along step C s (e :: es))
    (hs : step s e = some s₁) : Along step C s₁ es := by
  intro pre f post s₂ he hr
  exact h (e :: pre) f post s₂ (by rw [he]; rfl) (by simp [hs, hr])

theorem along_cons {s : σ} {e : ε} {es : List ε} :
    Along step C s (e :: es) ↔ C s e ∧ ∀ s₁, step s e = some s₁ → Along step C s₁ es := by
  constructor
  · intro h
    exact ⟨h.head, fun _ hs => h.tail hs⟩
  · rintro ⟨h₀, h⟩ pre f post s₂ he hr
    cases pre with
    | nil =>
        simp only [List.nil_append, List.cons.injEq] at he
        simp only [run_nil, Option.some.injEq] at hr
        rw [← he.1, ← hr]; exact h₀
    | cons e' pre =>
        simp only [List.cons_append, List.cons.injEq] at he
        obtain ⟨rfl, he⟩ := he
        obtain ⟨s₁, hs, hr⟩ := run_cons_eq_some.mp hr
        exact h s₁ hs pre f post s₂ he hr

theorem Along.prefix {s : σ} {es fs : List ε} (h : Along step C s (es ++ fs)) : Along step C s es := by
  intro pre e post s₁ he hr
  exact h pre e (post ++ fs) s₁ (by rw [he]; simp) hr

theorem along_of_forall {D : ε → Prop} {s : σ} {es : List ε} (h : ∀ e ∈ es, D e) :
    Along step (fun _ e => D e) s es := by
  intro pre e post s₁ he _
  exact h e (by simp [he])

/-- On a finite run the condition can be checked event by event. -/
instance Along.decidable [∀ s e, Decidable (C s e)] : ∀ s es, Decidable (Along step C s es)
  | s, [] => isTrue (Along.nil s)
  | s, e :: es =>
      match hs : step s e with
      | none => decidable_of_iff (C s e) (by simp [along_cons, hs])
      | some s₁ =>
          have := Along.decidable s₁ es
          decidable_of_iff (C s e ∧ Along step C s₁ es) (by simp [along_cons, hs])

/-! ## The induction rule -/

/-- What every step under `C` preserves, every run along `C` preserves. -/
theorem run_preserves {I : σ → Prop}
    (hstep : ∀ s e s', I s → C s e → step s e = some s' → I s') :
    ∀ {es : List ε} {s s' : σ}, I s → Along step C s es → run step s es = some s' → I s'
  | [], s, s', hI, _, hr => by
      simp only [run_nil, Option.some.injEq] at hr
      subst hr; exact hI
  | e :: es, s, s', hI, hC, hr => by
      obtain ⟨s₁, hs, hr⟩ := run_cons_eq_some.mp hr
      exact run_preserves hstep (hstep s e s₁ hI hC.head hs) (hC.tail hs) hr

theorem run_invariant {I : σ → Prop} (hstep : ∀ s e s', I s → step s e = some s' → I s')
    {es : List ε} {s s' : σ} (hI : I s) (hr : run step s es = some s') : I s' :=
  run_preserves (C := fun _ _ => True) (fun s e s' h _ hs => hstep s e s' h hs) hI
    (fun _ _ _ _ _ _ => trivial) hr

/-- Runs from states that `f` does not tell apart end in such states, if steps do. -/
theorem run_congr {τ : Type w} {f : σ → τ}
    (hstep : ∀ s t e, f s = f t → (step s e).map f = (step t e).map f) :
    ∀ (es : List ε) {s t : σ}, f s = f t → (run step s es).map f = (run step t es).map f
  | [], s, t, h => by rw [run_nil, run_nil, Option.map_some, Option.map_some, h]
  | e :: es, s, t, h => by
      have hfirst := hstep s t e h
      rw [run_cons, run_cons]
      cases hs : step s e with
      | none =>
          rw [hs, Option.map_none] at hfirst
          rw [Option.map_eq_none_iff.mp hfirst.symm]
      | some s₁ =>
          rw [hs, Option.map_some] at hfirst
          obtain ⟨t₁, ht, hsame⟩ := Option.map_eq_some_iff.mp hfirst.symm
          rw [ht]
          exact run_congr hstep es hsame.symm

/-- What a step raises and lowers as its event says, a run raises and lowers as its events say. -/
theorem run_accrues {f : σ → Nat} {p q : ε → Bool} {D : ε → Prop}
    (hstep : ∀ s e s', D e → step s e = some s' → f s' + (q e).toNat = f s + (p e).toNat) :
    ∀ {es : List ε} {s s' : σ}, (∀ e ∈ es, D e) → run step s es = some s' →
      f s' + es.countP q = f s + es.countP p
  | [], s, s', _, hr => by
      simp only [run_nil, Option.some.injEq] at hr
      subst hr; rfl
  | e :: es, s, s', hD, hr => by
      obtain ⟨hhead, htail⟩ := List.forall_mem_cons.mp hD
      obtain ⟨s₁, hs, hr⟩ := run_cons_eq_some.mp hr
      have hfirst := hstep s e s₁ hhead hs
      have hrest := run_accrues hstep htail hr
      have hcount : ∀ p : ε → Bool, (e :: es).countP p = es.countP p + (p e).toNat := by
        intro p
        rw [List.countP_cons]
        cases p e <;> rfl
      rw [hcount, hcount]
      omega

/-- What every step raises by the weight of its event, a run raises by the weights of its events. -/
theorem run_count {f : σ → Nat} {p : ε → Bool}
    (hstep : ∀ s e s', step s e = some s' → f s' = f s + (p e).toNat) {es : List ε} {s s' : σ}
    (hr : run step s es = some s') : f s' = f s + es.countP p := by
  have haccrues := run_accrues (q := fun _ => false) (D := fun _ => True)
    (fun s e s' _ hs => hstep s e s' hs) (fun _ _ => trivial) hr
  rwa [List.countP_false] at haccrues

/-- Where `f` gains on `g` in a step exactly when `C` fails, a run ends with what it began with exactly along
`C`. -/
theorem run_balance {I : σ → Prop} {f g : σ → Nat}
    (hkeep : ∀ s e s', I s → step s e = some s' → I s')
    (hstep : ∀ s e s', I s → step s e = some s' →
      ∃ gain, f s' + g s = f s + g s' + gain ∧ (gain = 0 ↔ C s e)) :
    ∀ {es : List ε} {s s' : σ}, I s → run step s es = some s' →
      ∃ gain, f s' + g s = f s + g s' + gain ∧ (gain = 0 ↔ Along step C s es)
  | [], s, s', _, hr => by
      simp only [run_nil, Option.some.injEq] at hr
      subst hr
      exact ⟨0, rfl, iff_of_true rfl (Along.nil s)⟩
  | e :: es, s, s', hI, hr => by
      obtain ⟨s₁, hs, hr⟩ := run_cons_eq_some.mp hr
      obtain ⟨first, hfirst, hC⟩ := hstep s e s₁ hI hs
      obtain ⟨rest, hrest, hCs⟩ := run_balance hkeep hstep (hkeep s e s₁ hI hs) hr
      refine ⟨first + rest, by omega, ?_⟩
      have hnext : (∀ s₂, step s e = some s₂ → Along step C s₂ es) ↔ Along step C s₁ es := by
        rw [hs]
        exact ⟨fun h => h s₁ rfl, fun h s₂ h₂ => Option.some.inj h₂ ▸ h⟩
      rw [Nat.add_eq_zero_iff, along_cons, hC, hCs, hnext]

/-- A run that keeps `I` along `C` meets at every event what `I` and `C` give for one event. -/
theorem along_of_preserves {I : σ → Prop}
    (hstep : ∀ s e s', I s → C s e → step s e = some s' → I s')
    (hD : ∀ s e, I s → C s e → D s e) {es : List ε} {s : σ} (hI : I s) (hC : Along step C s es) :
    Along step D s es := by
  intro pre e post s₁ he hr
  have hC' : Along step C s pre := by rw [he] at hC; exact hC.prefix
  exact hD s₁ e (run_preserves hstep hI hC' hr) (hC pre e post s₁ he hr)

/-- A run that keeps `I` along `C` goes only through states that `I` describes. -/
theorem always_of_preserves {I : σ → Prop}
    (hstep : ∀ s e s', I s → C s e → step s e = some s' → I s') (hP : ∀ s, I s → P s)
    {es : List ε} {s : σ} (hI : I s) (hC : Along step C s es) : Always step P s es := by
  rintro pre s₁ ⟨post, rfl⟩ hr
  exact hP s₁ (run_preserves hstep hI hC.prefix hr)

theorem Always.tail {s s₁ : σ} {e : ε} {es : List ε} (h : Always step P s (e :: es))
    (hs : step s e = some s₁) : Always step P s₁ es := by
  intro pre s₂ hpre hr
  exact h (e :: pre) s₂ (List.cons_prefix_cons.mpr ⟨rfl, hpre⟩) (run_cons_eq_some.mpr ⟨s₁, hs, hr⟩)

theorem always_cons {s : σ} {e : ε} {es : List ε} :
    Always step P s (e :: es) ↔ P s ∧ ∀ s₁, step s e = some s₁ → Always step P s₁ es := by
  constructor
  · intro h
    exact ⟨h [] s (List.nil_prefix) rfl, fun _ hs => h.tail hs⟩
  · rintro ⟨h₀, h⟩ pre s₂ hpre hr
    cases pre with
    | nil =>
        simp only [run_nil, Option.some.injEq] at hr
        rw [← hr]; exact h₀
    | cons e' pre =>
        obtain ⟨rfl, htail⟩ := List.cons_prefix_cons.mp hpre
        obtain ⟨s₁, hs, hr⟩ := run_cons_eq_some.mp hr
        exact h s₁ hs pre s₂ htail hr

theorem always_nil {s : σ} : Always step P s [] ↔ P s := by
  constructor
  · intro h
    exact h [] s (List.prefix_refl _) rfl
  · rintro h pre s₁ hpre hr
    rw [List.prefix_nil.mp hpre, run_nil, Option.some.injEq] at hr
    rw [← hr]; exact h

/-- On a finite run the states can be checked one by one. -/
instance Always.decidable [∀ s, Decidable (P s)] : ∀ s es, Decidable (Always step P s es)
  | s, [] => decidable_of_iff (P s) always_nil.symm
  | s, e :: es =>
      match hs : step s e with
      | none => decidable_of_iff (P s) (by simp [always_cons, hs])
      | some s₁ =>
          have := Always.decidable s₁ es
          decidable_of_iff (P s ∧ Always step P s₁ es) (by simp [always_cons, hs])

/-- Where `C` is exactly what one step under `D` needs to end in `P`, a run along `D` goes through `P` exactly
along `C`. -/
theorem always_iff_along_under {I : σ → Prop} (hP : ∀ s, I s → P s)
    (hiff : ∀ s e s', I s → D s e → step s e = some s' → (P s' ↔ C s e))
    (hkeep : ∀ s e s', I s → D s e → C s e → step s e = some s' → I s')
    (hnone : ∀ s e, I s → D s e → step s e = none → C s e) {es : List ε} {s : σ} (hI : I s)
    (hD : Along step D s es) : Always step P s es ↔ Along step C s es := by
  constructor
  · intro h
    induction es generalizing s with
    | nil => exact Along.nil s
    | cons e es ih =>
        rw [along_cons]
        cases hs : step s e with
        | none => exact ⟨hnone s e hI hD.head hs, nofun⟩
        | some s₁ =>
            have hfirst : [e] <+: e :: es := ⟨es, rfl⟩
            have hC := (hiff s e s₁ hI hD.head hs).mp (h [e] s₁ hfirst (run_cons_eq_some.mpr ⟨s₁, hs, rfl⟩))
            refine ⟨hC, ?_⟩
            rintro s₂ hs₂
            cases hs₂
            exact ih (hkeep s e s₁ hI hD.head hC hs) (hD.tail hs) (h.tail hs)
  · intro hC
    refine always_of_preserves (C := fun s e => D s e ∧ C s e) ?_ hP hI ?_
    · exact fun s e s' hI h hs => hkeep s e s' hI h.1 h.2 hs
    · exact fun pre e post s₁ he hr => ⟨hD pre e post s₁ he hr, hC pre e post s₁ he hr⟩

theorem always_iff_along {I : σ → Prop} (hP : ∀ s, I s → P s)
    (hiff : ∀ s e s', I s → step s e = some s' → (P s' ↔ C s e))
    (hkeep : ∀ s e s', I s → C s e → step s e = some s' → I s')
    (hnone : ∀ s e, I s → step s e = none → C s e) {es : List ε} {s : σ} (hI : I s) :
    Always step P s es ↔ Along step C s es :=
  always_iff_along_under (D := fun _ _ => True) hP (fun s e s' h _ => hiff s e s' h)
    (fun s e s' h _ => hkeep s e s' h) (fun s e h _ => hnone s e h) hI (along_of_forall fun _ _ => trivial)

/-- Two conditions that say the same wherever the invariant and `D` hold are the same along a run. -/
theorem along_congr_under {I : σ → Prop} {P D : σ → ε → Prop}
    (hkeep : ∀ s e s', I s → D s e → C s e → step s e = some s' → I s')
    (hiff : ∀ s e, I s → D s e → (P s e ↔ C s e)) :
    ∀ {es : List ε} {s : σ}, I s → Along step D s es → (Along step P s es ↔ Along step C s es)
  | [], s, _, _ => iff_of_true (Along.nil s) (Along.nil s)
  | e :: es, s, hI, hD => by
      rw [along_cons, along_cons, hiff s e hI hD.head]
      refine and_congr_right fun hC => forall_congr' fun s₁ => forall_congr' fun hs => ?_
      exact along_congr_under hkeep hiff (hkeep s e s₁ hI hD.head hC hs) (hD.tail hs)

theorem along_congr {I : σ → Prop} {P : σ → ε → Prop}
    (hkeep : ∀ s e s', I s → C s e → step s e = some s' → I s') (hiff : ∀ s e, I s → (P s e ↔ C s e))
    {es : List ε} {s : σ} (hI : I s) : Along step P s es ↔ Along step C s es :=
  along_congr_under (D := fun _ _ => True) (fun s e s' h _ => hkeep s e s' h) (fun s e h _ => hiff s e h) hI
    (along_of_forall fun _ _ => trivial)

theorem Always.last {s s' : σ} {es : List ε} (h : Always step P s es) (hr : run step s es = some s') :
    P s' :=
  h es s' (List.prefix_refl es) hr

theorem run_append {es fs : List ε} {s s' : σ} : run step s (es ++ fs) = some s' ↔
    ∃ s₁, run step s es = some s₁ ∧ run step s₁ fs = some s' := by
  induction es generalizing s with
  | nil => simp
  | cons e es ih =>
      rw [List.cons_append, run_cons_eq_some]
      constructor
      · rintro ⟨s₁, hs, hr⟩
        obtain ⟨s₂, h₁, h₂⟩ := ih.mp hr
        exact ⟨s₂, run_cons_eq_some.mpr ⟨s₁, hs, h₁⟩, h₂⟩
      · rintro ⟨s₂, h₁, h₂⟩
        obtain ⟨s₁, hs, hr⟩ := run_cons_eq_some.mp h₁
        exact ⟨s₁, hs, ih.mpr ⟨s₂, hr, h₂⟩⟩

theorem Along.suffix {s s₁ : σ} {es fs : List ε} (h : Along step C s (es ++ fs)) (hr : run step s es = some s₁) :
    Along step C s₁ fs := by
  intro pre e post s₂ he hr'
  exact h (es ++ pre) e post s₂ (by rw [he, List.append_assoc]) (run_append.mpr ⟨s₁, hr, hr'⟩)

/-- What every event of a run meets when it is taken, all events of a run that is taken to its end meet. -/
theorem forall_of_along {D : ε → Prop} {es : List ε} {s s' : σ}
    (h : Along step (fun s e => ∀ s₁, step s e = some s₁ → D e) s es) (hr : run step s es = some s') :
    ∀ e ∈ es, D e := by
  intro e he
  obtain ⟨pre, post, rfl⟩ := List.append_of_mem he
  obtain ⟨s₁, hpre, hpost⟩ := run_append.mp hr
  obtain ⟨s₂, hs, -⟩ := run_cons_eq_some.mp hpost
  exact h pre e post s₁ rfl hpre s₂ hs

theorem Always.along {s : σ} {es : List ε} (h : Always step P s es) : Along step (fun s _ => P s) s es := by
  rintro pre e post s₁ rfl hr
  exact h pre s₁ (List.prefix_append pre _) hr

/-! ## What a run brings out -/

section Outputs

variable {β : Type v} {out : σ → ε → Option β}

/-- What the events of the run bring out, one after another. -/
def outputs (step : σ → ε → Option σ) (out : σ → ε → Option β) : σ → List ε → List β
  | _, [] => []
  | s, e :: es =>
      match step s e with
      | none => []
      | some s' => (out s e).toList ++ outputs step out s' es

/-- Where an event that brings something out brings out what `f` says for the number of the next one, a run
brings out what `f` says for the numbers of a range. -/
theorem outputs_eq {I : Nat → σ → Prop} {f : Nat → β}
    (hstep : ∀ k s e s', I k s → C s e → step s e = some s' →
      (out s e = none ∧ I k s') ∨ (out s e = some (f k) ∧ I (k + 1) s')) :
    ∀ {es : List ε} {s s' : σ} {k : Nat}, I k s → Along step C s es → run step s es = some s' →
      outputs step out s es = (List.range' k (outputs step out s es).length).map f
  | [], _, _, _, _, _, _ => rfl
  | e :: es, s, s', k, hI, hC, hr => by
      obtain ⟨s₁, hs, hr⟩ := run_cons_eq_some.mp hr
      unfold outputs
      rw [hs]
      rcases hstep k s e s₁ hI hC.head hs with ⟨hout, hI⟩ | ⟨hout, hI⟩
      · simp only [hout, Option.toList_none, List.nil_append]
        exact outputs_eq hstep hI (hC.tail hs) hr
      · have htail := outputs_eq hstep hI (hC.tail hs) hr
        simp only [hout, Option.toList_some, List.singleton_append, List.length_cons, List.range'_succ,
          List.map_cons, ← htail]

/-- What every step keeps of the state and of what was brought out so far, a run keeps. -/
theorem outputs_invariant {I : List β → σ → Prop}
    (hstep : ∀ bs s e s', I bs s → step s e = some s' → I (bs ++ (out s e).toList) s') :
    ∀ {es : List ε} {s s' : σ} {bs : List β}, I bs s → run step s es = some s' →
      I (bs ++ outputs step out s es) s'
  | [], s, s', bs, hI, hr => by
      simp only [run_nil, Option.some.injEq] at hr
      subst hr
      rwa [outputs, List.append_nil]
  | e :: es, s, s', bs, hI, hr => by
      obtain ⟨s₁, hs, hr⟩ := run_cons_eq_some.mp hr
      have hrest := outputs_invariant hstep (hstep bs s e s₁ hI hs) hr
      unfold outputs
      rwa [hs, ← List.append_assoc]

theorem forall_outputs {Q : β → Prop} (hout : ∀ s e b, out s e = some b → Q b) :
    ∀ (es : List ε) (s : σ), ∀ b ∈ outputs step out s es, Q b
  | [], _, b, hb => by cases hb
  | e :: es, s, b, hb => by
      unfold outputs at hb
      split at hb
      · cases hb
      · rcases List.mem_append.mp hb with hb | hb
        · exact hout s e b (Option.mem_toList.mp hb)
        · exact forall_outputs hout es _ b hb

/-- What counts each `b` that an event brings out counts those that a run brings out. -/
theorem count_outputs [DecidableEq β] {b : β} {f : σ → Nat} {I : σ → Prop}
    (hkeep : ∀ s e s', I s → step s e = some s' → I s')
    (hstep : ∀ s e s', I s → step s e = some s' → f s' = f s + (out s e).toList.count b) :
    ∀ {es : List ε} {s s' : σ}, I s → run step s es = some s' → f s' = f s + (outputs step out s es).count b
  | [], s, s', _, hr => by
      simp only [run_nil, Option.some.injEq] at hr
      subst hr; rfl
  | e :: es, s, s', hI, hr => by
      obtain ⟨s₁, hs, hr⟩ := run_cons_eq_some.mp hr
      have hfirst := hstep s e s₁ hI hs
      have hrest := count_outputs hkeep hstep (hkeep s e s₁ hI hs) hr
      unfold outputs
      simp only [hs, List.count_append]
      omega

/-- What a run brings out is a run of another system, if each event that brings something out is a step there and
the others are not seen there. -/
theorem run_outputs {τ : Type w} {other : τ → β → Option τ} {R : σ → τ → Prop} {D : ε → Prop}
    (hhidden : ∀ s t e s', R s t → D e → step s e = some s' → out s e = none → R s' t)
    (hseen : ∀ s t e s' b, R s t → D e → step s e = some s' → out s e = some b →
      ∃ t', other t b = some t' ∧ R s' t') :
    ∀ {es : List ε} {s s' : σ} {t : τ}, R s t → (∀ e ∈ es, D e) → run step s es = some s' →
      ∃ t', run other t (outputs step out s es) = some t' ∧ R s' t'
  | [], s, s', t, hR, _, hr => by
      simp only [run_nil, Option.some.injEq] at hr
      subst hr
      exact ⟨t, rfl, hR⟩
  | e :: es, s, s', t, hR, hD, hr => by
      obtain ⟨hhead, htail⟩ := List.forall_mem_cons.mp hD
      obtain ⟨s₁, hs, hr⟩ := run_cons_eq_some.mp hr
      unfold outputs
      simp only [hs]
      cases hout : out s e with
      | none => exact run_outputs hhidden hseen (hhidden s t e s₁ hR hhead hs hout) htail hr
      | some b =>
          obtain ⟨t₁, ht, hR₁⟩ := hseen s t e s₁ b hR hhead hs hout
          obtain ⟨t', ht', hR'⟩ := run_outputs hhidden hseen hR₁ htail hr
          exact ⟨t', run_cons_eq_some.mpr ⟨t₁, ht, ht'⟩, hR'⟩

end Outputs

/-! ## Runs under a clock -/

/-- A state and the latest reading of the clock. -/
structure Clocked (σ : Type u) where
  now : Nat
  state : σ
  deriving Repr, DecidableEq

/-- A step that reads the clock. The event carries the reading, which is never earlier than the last. -/
def clocked (step : σ → Nat → ε → Option σ) (s : Clocked σ) (e : Nat × ε) : Option (Clocked σ) :=
  if s.now ≤ e.1 then (step s.state e.1 e.2).map fun s' => ⟨e.1, s'⟩ else none

variable {timed : σ → Nat → ε → Option σ} {c c' : Clocked σ}

theorem clocked_eq_some {e : Nat × ε} : clocked timed c e = some c' ↔
    c.now ≤ e.1 ∧ timed c.state e.1 e.2 = some c'.state ∧ c'.now = e.1 := by
  unfold clocked
  split
  · rename_i hle
    rw [Option.map_eq_some_iff]
    constructor
    · rintro ⟨s', hs, rfl⟩
      exact ⟨hle, hs, rfl⟩
    · rintro ⟨-, hs, hn⟩
      exact ⟨c'.state, hs, by rw [← hn]⟩
  · rename_i hlt
    constructor
    · intro h
      cases h
    · rintro ⟨hle, -⟩
      exact absurd hle hlt

/-- The readings of a run are never earlier than the one it starts from. -/
theorem clocked_run_le {es : List (Nat × ε)} (hr : run (clocked timed) c es = some c') :
    ∀ e ∈ es, c.now ≤ e.1 := by
  induction es generalizing c with
  | nil => nofun
  | cons e es ih =>
      obtain ⟨c₁, hs, hr⟩ := run_cons_eq_some.mp hr
      obtain ⟨hle, -, hnow⟩ := clocked_eq_some.mp hs
      refine List.forall_mem_cons.mpr ⟨hle, ?_⟩
      intro f hf
      have := ih hr f hf
      omega

/-! ## Runs that remember -/

/-- A step that keeps the events taken so far, the latest first. -/
def traced (step : σ → ε → Option σ) (s : List ε × σ) (e : ε) : Option (List ε × σ) :=
  (step s.2 e).map fun s' => (e :: s.1, s')

theorem traced_eq_some {s s' : List ε × σ} {e : ε} :
    traced step s e = some s' ↔ step s.2 e = some s'.2 ∧ s'.1 = e :: s.1 := by
  unfold traced
  rw [Option.map_eq_some_iff]
  constructor
  · rintro ⟨s₁, hs, rfl⟩
    exact ⟨hs, rfl⟩
  · rintro ⟨hs, htrace⟩
    exact ⟨s'.2, hs, by rw [← htrace]⟩

end Steps
