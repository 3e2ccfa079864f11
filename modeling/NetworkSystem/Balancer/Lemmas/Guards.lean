import NetworkSystem.Balancer.Lemmas.Entries

/-!
# Live guards

The entries and the guards of a balancer are cells with counted handles, and every step is one on the cells
or leaves them alone.
-/

namespace NetworkSystem

open Handles

namespace LoadBalancer

variable {s s' : LoadBalancer} {e : BalancerEvent} {r : Nat} {b b' : BackendState} {roll : Nat}

def cells (s : LoadBalancer) : Cells :=
  ⟨s.entries.map (·.activeConnections), s.guards.map (Option.map (·.state))⟩

theorem live_cells : s.cells.live r = s.liveGuards r := by
  unfold Cells.live liveGuards cells
  rw [List.count, List.countP_map]
  congr 1
  funext g
  cases g with
  | none => rfl
  | some g => simp

theorem counts_getElem? : s.cells.counts[r]? = s.entries[r]?.map (·.activeConnections) := List.getElem?_map

/-! ## Writes to an entry -/

theorem map_modify {α β : Type} {l : List α} {i : Nat} {f : α → α} {g : α → β} {h : β → β}
    (hg : ∀ a, g (f a) = h (g a)) : (l.modify i f).map g = (l.map g).modify i h := by
  apply List.ext_getElem?
  intro j
  rw [List.getElem?_map, List.getElem?_modify, List.getElem?_modify, List.getElem?_map]
  cases l[j]? with
  | none => rfl
  | some a =>
      by_cases hi : i = j
      · simp [hi, hg]
      · simp [hi]

theorem map_modify_kept {α β : Type} {l : List α} {i : Nat} {f : α → α} {g : α → β} (hg : ∀ a, g (f a) = g a) :
    (l.modify i f).map g = l.map g := by
  rw [map_modify (h := id) hg, List.modify_id]

theorem recordRequest_connections {success : Bool} :
    (b.recordRequest success).activeConnections = b.activeConnections := by
  unfold BackendState.recordRequest
  split <;> rfl

theorem checked_connections {threshold : UInt32} {now : Nat} {isHealthy : Bool} :
    (b.checked threshold now isHealthy).activeConnections = b.activeConnections := by
  unfold BackendState.checked
  split
  · rfl
  · split <;> rfl

/-! ## Steps -/

theorem cells_guard {index : UInt64} {b : Listed} (hb : b ∈ s.healthyBackends) :
    Handles.step fetchSub s.cells (.acquire b.1) = some ((s.atIndex index).guard b).2.cells := by
  obtain ⟨r, b⟩ := b
  obtain ⟨-, hentry, -⟩ := mem_healthyBackends.mp hb
  obtain ⟨hr, -⟩ := List.getElem?_eq_some_iff.mp hentry
  have hcell : r < s.cells.counts.length := by rwa [cells, List.length_map]
  have hcount : (s.entries.modify r .addConnection).map (·.activeConnections) =
      s.cells.counts.modify r (· + 1) := map_modify fun _ => rfl
  rw [step_acquire hcell, ← hcount]
  simp only [guard, atIndex, cells, List.map_append, List.map_cons, List.map_nil, Option.map_some]

theorem cells_dropGuard {i : Nat} {g : BackendGuard} (hg : s.guards[i]? = some (some g)) :
    Handles.step fetchSub s.cells (.release i) = some (cells
      { s with entries := s.entries.modify g.state .dropConnection, guards := s.guards.set i none }) := by
  have hhandle : s.cells.handles[i]? = some (some g.state) := by
    simp only [cells, List.getElem?_map, hg, Option.map_some]
  have hcount : (s.entries.modify g.state .dropConnection).map (·.activeConnections) =
      s.cells.counts.modify g.state fetchSub := map_modify fun _ => rfl
  rw [step_release hhandle, ← hcount]
  simp only [cells, List.map_set, Option.map_none]

/-- A write to one entry that keeps its counter leaves the cells alone. -/
theorem cells_modify {f : BackendState → BackendState} {i : Nat}
    (hf : ∀ b, (f b).activeConnections = b.activeConnections) :
    cells { s with entries := s.entries.modify i f } = s.cells := by
  simp only [cells]
  rw [map_modify_kept hf]

/-- A step of the balancer is one of the cells, or leaves them alone. -/
theorem Step.simulates (h : Step s e s') :
    s'.cells = s.cells ∨ ∃ ev, Handles.step fetchSub s.cells ev = some s'.cells := by
  cases h with
  | passed | removed | setNone => exact Or.inl rfl
  | selected index hb => exact Or.inr ⟨_, cells_guard hb⟩
  | dropped hg => exact Or.inr ⟨_, cells_dropGuard hg⟩
  | recorded => exact Or.inl (cells_modify fun _ => recordRequest_connections)
  | added =>
      refine Or.inr ⟨.alloc, ?_⟩
      simp [Handles.step, cells, addBackend, BackendState.new]
  | set =>
      refine Or.inl (cells_modify fun b => ?_)
      split <;> rfl
  | checked => exact Or.inl (cells_modify fun _ => checked_connections)

theorem fetchSub_succ (n : Nat) : fetchSub (n + 1) = n := rfl

theorem exact_new (config : LoadBalancerConfig) (overflowChecks : Bool) (now : Nat) (backends : List Backend) :
    (new config overflowChecks now backends).cells.Exact := by
  have hcells : (new config overflowChecks now backends).cells = ⟨List.replicate backends.length 0, []⟩ := by
    simp only [cells, new, List.map_map, List.map_nil, Cells.mk.injEq, and_true]
    exact List.map_const' ..
  rw [hcells]
  exact Cells.Exact.fresh _

theorem exact_step (h : s.cells.Exact) (hs : s.step e = some s') : s'.cells.Exact := by
  rcases (step_cases hs).simulates with hcells | ⟨ev, hev⟩
  · rwa [hcells]
  · exact h.step fetchSub_succ hev

/-! ## The counters -/

theorem counted_of_exact (h : s.cells.Exact) (hb : s.entries[r]? = some b) :
    b.activeConnections = s.liveGuards r := by
  rw [← live_cells]
  exact h.counted r _ (by rw [counts_getElem?, hb, Option.map_some])

theorem positive_of_exact {i : Nat} {g : BackendGuard} (h : s.cells.Exact) (hg : s.guards[i]? = some (some g)) :
    ∃ b, s.entries[g.state]? = some b ∧ 0 < b.activeConnections := by
  have hhandle : s.cells.handles[i]? = some (some g.state) := by
    simp only [cells, List.getElem?_map, hg, Option.map_some]
  obtain ⟨n, hn⟩ := h.count_pos hhandle
  rw [counts_getElem?] at hn
  obtain ⟨b, hb, hcount⟩ := Option.map_eq_some_iff.mp hn
  exact ⟨b, hb, by omega⟩

/-! ## The least connections -/

theorem healthyBackends_eq_nil : s.healthyBackends = [] ↔ ∀ r ∈ s.backends, s.isHealthy r = false := by
  constructor
  · intro hnil r hr
    by_contra hhealthy
    obtain ⟨b, hb, hbhealthy⟩ := isHealthy_iff.mp (Bool.eq_true_of_not_eq_false hhealthy)
    have hmem := mem_healthyBackends.mpr ⟨hr, hb, hbhealthy⟩
    rw [hnil] at hmem
    cases hmem
  · intro hnone
    rw [List.eq_nil_iff_forall_not_mem]
    rintro ⟨r, b⟩ hmem
    obtain ⟨hr, hb, hbhealthy⟩ := mem_healthyBackends.mp hmem
    have hhealthy := isHealthy_iff.mpr ⟨b, hb, hbhealthy⟩
    rw [hnone r hr] at hhealthy
    cases hhealthy

theorem select_leastConnections (hstrategy : s.config.strategy = .leastConnections) :
    (s.select roll).1 =
      .ok ((selectLeastConnections s.healthyBackends).map fun b => (s.guard b).1) := by
  unfold select
  split
  · rename_i hempty
    have hnil : s.healthyBackends = [] := by
      rw [healthyBackends_eq_nil, List.isEmpty_iff.mp hempty]
      simp
    rw [hnil]
    rfl
  · split
    · rename_i hnil
      rw [List.isEmpty_iff.mp hnil]
      rfl
    · simp only [selectBy, hstrategy]
      cases selectLeastConnections s.healthyBackends with
      | none => rfl
      | some b => rfl

theorem selectsLeast_of_exact (h : s.cells.Exact) (hstrategy : s.config.strategy = .leastConnections) :
    SelectsLeast s (s.select roll).1 := by
  rw [select_leastConnections hstrategy]
  constructor
  · rw [← healthyBackends_eq_nil, Except.ok.injEq, Option.map_eq_none_iff]
    exact List.argmin_eq_none
  · rintro ⟨r, hr, hhealthy⟩
    obtain ⟨b, hb, hbhealthy⟩ := isHealthy_iff.mp hhealthy
    cases hleast : selectLeastConnections s.healthyBackends with
    | none =>
        have hnil := List.argmin_eq_none.mp hleast
        have hmem := mem_healthyBackends.mpr ⟨hr, hb, hbhealthy⟩
        rw [hnil] at hmem
        cases hmem
    | some selected =>
        obtain ⟨r₀, b₀⟩ := selected
        obtain ⟨hr₀, hb₀, hhealthy₀⟩ := mem_healthyBackends.mp (List.argmin_mem hleast)
        refine ⟨_, rfl, hr₀, isHealthy_iff.mpr ⟨b₀, hb₀, hhealthy₀⟩, ?_⟩
        intro r' hr' hhealthy'
        obtain ⟨b', hb', hbhealthy'⟩ := isHealthy_iff.mp hhealthy'
        have hle := List.le_of_mem_argmin (mem_healthyBackends.mpr ⟨hr', hb', hbhealthy'⟩) hleast
        rwa [counted_of_exact h hb₀, counted_of_exact h hb'] at hle

theorem countsGuards_of_exact (h : s.cells.Exact) : s.CountsGuards where
  counted _ _ hb := counted_of_exact h hb
  positive _ _ hg := positive_of_exact h hg
  least hstrategy _ := selectsLeast_of_exact h hstrategy

end LoadBalancer

end NetworkSystem
