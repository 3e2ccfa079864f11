import NetworkSystem.Lib.Steps

/-!
# Runs with their replies

Of a system that answers every event a run is a list of events with their replies, `answered`: an event with
another reply than the one that the system gives is refused. What an observer learns from a system is then
the part of such a list that the observer sees.

`run_without` is the rule for what stays hidden: where the events that are left out of a run do not matter to a
relation between two states, and the others are answered alike in related states, the rest of the run is a
run with the same replies.
-/

namespace Steps

universe u v w x

variable {σ : Type u} {τ : Type v} {ε : Type w} {ρ : Type x}

/-- A step function that answers, as one over events that come with their reply. -/
def answered [DecidableEq ρ] (reply : σ → Nat → ε → Option (ρ × σ)) (s : σ) (now : Nat) (e : ε × ρ) :
    Option σ :=
  (reply s now e.1).bind fun r => if r.1 = e.2 then some r.2 else none

theorem answered_eq_some [DecidableEq ρ] {reply : σ → Nat → ε → Option (ρ × σ)} {s s' : σ} {now : Nat}
    {e : ε × ρ} : answered reply s now e = some s' ↔ reply s now e.1 = some (e.2, s') := by
  unfold answered
  cases reply s now e.1 with
  | none => simp
  | some r => simp [Prod.ext_iff]

/-- The call of an event that comes with its reply: when it is made, and what it asks. -/
def asked (e : Nat × ε × ρ) : Nat × ε := (e.1, e.2.1)

/-! ## Leaving events out -/

/-- The second list is what is left of the first without some of the elements that meet `p`. -/
inductive Without (p : ε → Prop) : List ε → List ε → Prop
  | nil : Without p [] []
  | keep (e : ε) {es fs : List ε} : Without p es fs → Without p (e :: es) (e :: fs)
  | drop (e : ε) {es fs : List ε} : p e → Without p es fs → Without p (e :: es) fs

theorem without_filter {p : ε → Prop} (q : ε → Bool) (h : ∀ e, q e = false → p e) :
    ∀ es : List ε, Without p es (es.filter q)
  | [] => .nil
  | e :: es => by
      cases hq : q e with
      | false =>
          rw [List.filter_cons_of_neg (by simp [hq])]
          exact .drop e (h e hq) (without_filter q h es)
      | true =>
          rw [List.filter_cons_of_pos hq]
          exact .keep e (without_filter q h es)

variable {step : σ → ε → Option σ} {other : τ → ε → Option τ} {R : σ → τ → Prop} {p q : ε → Prop}

theorem run_without
    (hdrop : ∀ s t e s', R s t → p e → step s e = some s' → R s' t)
    (hkeep : ∀ s t e s', R s t → q e → step s e = some s' → ∃ t', other t e = some t' ∧ R s' t')
    {es fs : List ε} (hw : Without p es fs) (hq : ∀ e ∈ fs, q e) {s s' : σ} {t : τ} (hR : R s t)
    (hr : run step s es = some s') : ∃ t', run other t fs = some t' ∧ R s' t' := by
  induction hw generalizing s t with
  | nil =>
      rw [run_nil, Option.some.injEq] at hr
      exact ⟨t, rfl, hr ▸ hR⟩
  | keep e hw ih =>
      obtain ⟨s₁, hs, hr⟩ := run_cons_eq_some.mp hr
      obtain ⟨t₁, ht, hR₁⟩ := hkeep s t e s₁ hR (hq e List.mem_cons_self) hs
      obtain ⟨t', hrt, hR'⟩ := ih (fun f hf => hq f (List.mem_cons_of_mem e hf)) hR₁ hr
      exact ⟨t', run_cons_eq_some.mpr ⟨t₁, ht, hrt⟩, hR'⟩
  | drop e hp hw ih =>
      obtain ⟨s₁, hs, hr⟩ := run_cons_eq_some.mp hr
      exact ih hq (hdrop s t e s₁ hR hp hs) hr

/-! ## Replies are determined -/

variable [DecidableEq ρ] {reply : σ → Nat → ε → Option (ρ × σ)}

theorem answered_unique {c c₁ c₂ : Clocked σ} {e f : Nat × ε × ρ} (h : asked e = asked f)
    (he : clocked (answered reply) c e = some c₁) (hf : clocked (answered reply) c f = some c₂) : e = f := by
  obtain ⟨t, op, r⟩ := e
  obtain ⟨u, op', r'⟩ := f
  simp only [asked, Prod.mk.injEq] at h
  obtain ⟨rfl, rfl⟩ := h
  obtain ⟨-, he, -⟩ := clocked_eq_some.mp he
  obtain ⟨-, hf, -⟩ := clocked_eq_some.mp hf
  rw [answered_eq_some] at he hf
  have heq := he.symm.trans hf
  simp only [Option.some.injEq, Prod.mk.injEq] at heq
  obtain ⟨rfl, -⟩ := heq
  rfl

/-- Two runs from one state that make the same calls get the same replies. -/
theorem run_replies_unique {es fs : List (Nat × ε × ρ)} {c c₁ c₂ : Clocked σ}
    (h : es.map asked = fs.map asked) (hes : run (clocked (answered reply)) c es = some c₁)
    (hfs : run (clocked (answered reply)) c fs = some c₂) : es = fs := by
  induction es generalizing fs c with
  | nil =>
      rw [List.map_nil] at h
      exact (List.map_eq_nil_iff.mp h.symm).symm
  | cons e es ih =>
      cases fs with
      | nil => cases h
      | cons f fs =>
          rw [List.map_cons, List.map_cons, List.cons.injEq] at h
          obtain ⟨c', hs, hes⟩ := run_cons_eq_some.mp hes
          obtain ⟨c'', hs', hfs'⟩ := run_cons_eq_some.mp hfs
          obtain rfl := answered_unique h.1 hs hs'
          rw [hs, Option.some.injEq] at hs'
          rw [← hs'] at hfs'
          rw [ih h.2 hes hfs']

end Steps
