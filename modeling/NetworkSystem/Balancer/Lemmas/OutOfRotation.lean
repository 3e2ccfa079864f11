import NetworkSystem.Balancer.Lemmas.Selection

/-!
# Out of rotation

Which candidates a step can bring, and which ones `set_backend_health` takes away.
-/

namespace NetworkSystem

open Steps

namespace LoadBalancer

variable {s s' : LoadBalancer} {e : BalancerEvent} {r : Nat} {b b' : BackendState} {g : BackendGuard} {now : Nat}
  {address : String} {healthy : Bool} {trace : List BalancerEvent}

theorem select_mem {roll : Nat} (h : (s.select roll).1 = .ok (some g)) : g ∈ s.candidates := by
  by_cases hnil : s.candidates = []
  · rw [select_of_none hnil] at h
    cases h
  · rw [(select_of_candidates _ hnil).1] at h
    cases hselected : (s.selectBy roll s.healthyBackends).1 with
    | error p =>
        rw [hselected] at h
        cases h
    | ok selected =>
        cases selected with
        | none =>
            rw [hselected] at h
            cases h
        | some b =>
            rw [hselected] at h
            cases h
            exact List.mem_map_of_mem (selectBy_mem hselected)

/-! ## The candidates after a step -/

/-- A candidate is one already where the list and the entries of healthy backends were there before. -/
theorem candidate_of_entries (hg : g ∈ s'.candidates) (hbackends : s'.backends ⊆ s.backends)
    (hentry : ∀ b', s'.entries[g.state]? = some b' → b'.healthy = true →
      ∃ b, s.entries[g.state]? = some b ∧ b.healthy = true ∧ b.backend = b'.backend) : g ∈ s.candidates := by
  obtain ⟨hr, b', hb', hhealthy', hbackend⟩ := mem_candidates.mp hg
  obtain ⟨b, hb, hhealthy, hbackend'⟩ := hentry b' hb' hhealthy'
  exact mem_candidates.mpr ⟨hbackends hr, b, hb, hhealthy, hbackend'.trans hbackend⟩

/-- A write to an entry that keeps its backend and makes nothing healthy brings no candidate. -/
theorem candidate_of_modify {f : BackendState → BackendState} {i : Nat} (hg : g ∈ s'.candidates)
    (hbackends : s'.backends = s.backends) (hentries : s'.entries = s.entries.modify i f)
    (hf : ∀ b, (f b).backend = b.backend ∧ ((f b).healthy = true → b.healthy = true)) : g ∈ s.candidates := by
  refine candidate_of_entries hg (by rw [hbackends]; exact List.Subset.refl _) ?_
  intro b' hb' hhealthy
  rw [hentries] at hb'
  obtain ⟨b, hb, rfl⟩ := getElem?_modify_eq_some hb'
  refine ⟨b, hb, ?_⟩
  split at hhealthy
  · rename_i hi
    rw [if_pos hi]
    exact ⟨(hf b).2 hhealthy, (hf b).1.symm⟩
  · rename_i hi
    rw [if_neg hi]
    exact ⟨hhealthy, rfl⟩

theorem hasAddress_iff : s.hasAddress address r = true ↔
    ∃ b, s.entries[r]? = some b ∧ b.backend.address = address := by
  rw [hasAddress, Option.any_eq_true]
  simp only [beq_iff_eq]

theorem recordRequest_backend {success : Bool} : (b.recordRequest success).backend = b.backend := by
  unfold BackendState.recordRequest
  split <;> rfl

/-- A step without a check brings no candidate but one that its event is about. -/
theorem Step.candidate (h : Step s e s') (he : isCheck e = false) (hg : g ∈ s'.candidates) :
    g ∈ s.candidates ∨ takesOut g.backend.address e = some false := by
  cases h with
  | passed => exact Or.inl hg
  | selected =>
      exact Or.inl (candidate_of_modify (f := .addConnection) hg rfl rfl fun _ => ⟨rfl, id⟩)
  | dropped => exact Or.inl (candidate_of_modify (f := .dropConnection) hg rfl rfl fun _ => ⟨rfl, id⟩)
  | recorded =>
      refine Or.inl (candidate_of_modify hg rfl rfl fun b => ⟨recordRequest_backend, ?_⟩)
      rw [recordRequest_healthy]
      exact id
  | @added now backend =>
      obtain ⟨hr, b, hb, hhealthy, hbackend⟩ := mem_candidates.mp hg
      simp only [addBackend, List.getElem?_append] at hb
      split at hb
      · rename_i hlt
        refine Or.inl (mem_candidates.mpr ⟨?_, b, hb, hhealthy, hbackend⟩)
        rcases List.mem_append.mp hr with hr | hr
        · exact hr
        · rw [List.mem_singleton.mp hr] at hlt
          exact absurd hlt (Nat.lt_irrefl _)
      · rw [List.getElem?_singleton] at hb
        split at hb
        · cases hb
          exact Or.inr (if_pos (congrArg Backend.address hbackend))
        · cases hb
  | removed =>
      exact Or.inl (candidate_of_entries hg (List.filter_subset_self _) fun b' hb' hhealthy => ⟨b', hb', hhealthy, rfl⟩)
  | setNone => exact Or.inl hg
  | @set now address healthy r hr =>
      cases healthy with
      | false =>
          refine Or.inl (candidate_of_modify hg rfl rfl fun b => ⟨rfl, fun hmarked => ?_⟩)
          cases hmarked
      | true =>
          obtain ⟨b₀, hb₀, haddress⟩ := hasAddress_iff.mp (List.find?_some hr)
          obtain ⟨hlisted, b, hb, hhealthy, hbackend⟩ := mem_candidates.mp hg
          obtain ⟨b, hb', rfl⟩ := getElem?_modify_eq_some hb
          by_cases hi : r = g.state
          · rw [if_pos hi] at hbackend
            rw [← hi, hb₀, Option.some.injEq] at hb'
            subst hb'
            refine Or.inr (if_pos ?_)
            rw [← hbackend]
            exact haddress.symm
          · rw [if_neg hi] at hhealthy hbackend
            exact Or.inl (mem_candidates.mpr ⟨hlisted, b, hb', hhealthy, hbackend⟩)
  | checked => cases he

/-- What is left after an address is taken out of rotation. -/
theorem mem_candidates_marked (hs : s.step (.setBackendHealth now address false) = some s') :
    g ∈ s'.candidates ↔ g ∈ s.candidates ∧ s.backends.find? (s.hasAddress address) ≠ some g.state := by
  cases step_cases hs with
  | setNone hnone => simp [hnone]
  | @set _ _ _ r hr =>
      simp only [hr, ne_eq, Option.some.injEq, mem_candidates]
      constructor
      · rintro ⟨hlisted, b, hb, hhealthy, hbackend⟩
        obtain ⟨b₀, hb₀, rfl⟩ := getElem?_modify_eq_some hb
        by_cases hi : r = g.state
        · rw [if_pos hi] at hhealthy
          cases hhealthy
        · rw [if_neg hi] at hhealthy hbackend
          exact ⟨⟨hlisted, b₀, hb₀, hhealthy, hbackend⟩, hi⟩
      · rintro ⟨⟨hlisted, b, hb, hhealthy, hbackend⟩, hi⟩
        exact ⟨hlisted, b, by rw [List.getElem?_modify_ne _ _ hi, hb], hhealthy, hbackend⟩

/-! ## The traces -/

theorem takenOut_cons : takenOut address (e :: trace) = (takesOut address e).getD (takenOut address trace) := by
  rw [takenOut, List.findSome?_cons]
  cases takesOut address e <;> rfl

theorem takesOut_eq_some_true (he : takesOut address e = some true) :
    ∃ now, e = .setBackendHealth now address false := by
  cases e with
  | setBackendHealth now a healthy =>
      simp only [takesOut] at he
      split at he
      · rename_i heq
        cases healthy with
        | false => exact ⟨now, by rw [heq]⟩
        | true => cases he
      · cases he
  | addBackend now backend =>
      simp only [takesOut] at he
      split at he
      · cases he
      · cases he
  | _ => cases he

theorem marksOut_eq_some (he : marksOut e = some address) : ∃ now, e = .setBackendHealth now address false := by
  unfold marksOut at he
  split at he
  · cases he
    exact ⟨_, rfl⟩
  · cases he

variable {t t' : List BalancerEvent × LoadBalancer}

/-- An event that takes nothing out keeps what is out of rotation there. -/
theorem OutOfRotation.kept (h : OutOfRotation t) (hcheck : isCheck e = false) (he : marksOut e = none)
    (hs : traced step t e = some t') : OutOfRotation t' := by
  obtain ⟨hstep, htrace⟩ := traced_eq_some.mp hs
  intro g hg
  rw [htrace, takenOut_cons]
  rcases (step_cases hstep).candidate hcheck hg with hg | hin
  · cases htakes : takesOut g.backend.address e with
    | none => exact h g hg
    | some out =>
        cases out with
        | false => rfl
        | true =>
            obtain ⟨now, rfl⟩ := takesOut_eq_some_true htakes
            cases he
  · rw [hin]
    rfl

/-- After an address is taken out nothing of it is left exactly where every other backend of the list that has
it was not healthy. -/
theorem OutOfRotation.marked_iff (h : OutOfRotation t)
    (hs : traced step t (.setBackendHealth now address false) = some t') :
    OutOfRotation t' ↔ MarksEvery t (.setBackendHealth now address false) := by
  obtain ⟨hstep, htrace⟩ := traced_eq_some.mp hs
  have htakes : ∀ a, takenOut a t'.1 = if address = a then true else takenOut a t.1 := by
    intro a
    rw [htrace, takenOut_cons, takesOut]
    split <;> rfl
  constructor
  · rintro hout a ⟨⟩ g hg haddress
    by_contra hne
    have hfalse := hout g ((mem_candidates_marked hstep).mpr ⟨hg, hne⟩)
    rw [htakes, if_pos haddress.symm] at hfalse
    cases hfalse
  · intro hmarks g hg
    obtain ⟨hg, hne⟩ := (mem_candidates_marked hstep).mp hg
    rw [htakes]
    split
    · rename_i haddress
      exact absurd (hmarks address rfl g hg haddress.symm) hne
    · exact h g hg

theorem OutOfRotation.step_iff (h : OutOfRotation t) (hcheck : isCheck e = false)
    (hs : traced step t e = some t') : OutOfRotation t' ↔ MarksEvery t e := by
  cases he : marksOut e with
  | none =>
      refine iff_of_true (h.kept hcheck he hs) ?_
      intro address haddress
      rw [he] at haddress
      cases haddress
  | some address =>
      obtain ⟨now, rfl⟩ := marksOut_eq_some he
      exact h.marked_iff hs

theorem OutOfRotation.new (config : LoadBalancerConfig) (overflowChecks : Bool) (now : Nat)
    (backends : List Backend) : OutOfRotation ([], .new config overflowChecks now backends) := fun _ _ => rfl

theorem marksEvery_of_none (hs : traced step t e = none) : MarksEvery t e := by
  intro address he
  obtain ⟨now, rfl⟩ := marksOut_eq_some he
  cases hs

/-- `set_backend_health` is about the entries of its address. -/
theorem keepsOthers (t : List BalancerEvent × LoadBalancer) (e : BalancerEvent) : KeepsOthers t e := by
  rintro now address healthy rfl s' hs r b hb hne
  cases step_cases hs with
  | setNone => exact hb
  | @set _ _ _ r' hr =>
      obtain ⟨b₀, hb₀, haddress⟩ := hasAddress_iff.mp (List.find?_some hr)
      have hi : r' ≠ r := by
        rintro rfl
        rw [hb, Option.some.injEq] at hb₀
        rw [hb₀] at hne
        exact hne haddress
      rw [List.getElem?_modify_ne _ _ hi, hb]

end LoadBalancer

end NetworkSystem
