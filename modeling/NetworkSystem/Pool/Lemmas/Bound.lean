import NetworkSystem.Pool.Lemmas.Step

/-!
# The number of connections

A call of `acquire` creates a connection under a permit, `prune_idle` without one. The permits bound the
connections as long as `prune_idle` finds room for those it creates.
-/

namespace NetworkSystem

open TaskPool Steps

variable {T E : Type} {config : PoolConfig}

/-- The connections that are in the queue, held by a guard or in the hands of a call. -/
def aliveConnections (p : Pool (ConnectionPool T) (PoolCall T E)) : Nat :=
  p.shared.available.length + p.total PoolCall.alive

/-- The connections that are there, and those that calls of `acquire` are on the way to create. -/
def reservedConnections (p : Pool (ConnectionPool T) (PoolCall T E)) : Nat :=
  p.shared.available.length + (p.total PoolCall.committed + p.total PoolCall.prepared)

/-- What the event asks of a call at this place: a connection that `prune_idle` has created finds room, and
so does a call of `acquire` that finds nothing in the queue while `prune_idle` has a connection in hand. -/
def PoolCall.FindsRoom (config : PoolConfig) (p : Pool (ConnectionPool T) (PoolCall T E)) :
    PoolCall T E → PoolEvent T E → Prop
  | .filling _, .create (.ok _) _ => reservedConnections p < config.maxSize
  | .permitted, .lock clock => p.shared.unexpired config clock = [] → 0 < p.total PoolCall.prepared →
      p.total PoolCall.committed + p.total PoolCall.prepared < config.maxSize
  | _, _ => True

def PruneFindsRoom (config : PoolConfig) (p : Pool (ConnectionPool T) (PoolCall T E)) :
    Event PoolCallKind (PoolEvent T E) → Prop
  | .spawn _ => True
  | .act i e => ∀ c ∈ p.tasks[i]?, c.FindsRoom config p e

instance (p : Pool (ConnectionPool T) (PoolCall T E)) (c : PoolCall T E) (e : PoolEvent T E) :
    Decidable (c.FindsRoom config p e) := by
  unfold PoolCall.FindsRoom
  split <;> infer_instance

instance (p : Pool (ConnectionPool T) (PoolCall T E)) (ev : Event PoolCallKind (PoolEvent T E)) :
    Decidable (PruneFindsRoom config p ev) :=
  match ev with
  | .spawn _ => isTrue trivial
  | .act _ _ => inferInstanceAs (Decidable (∀ _ ∈ _, _))

theorem PoolStep.permits {s s' : ConnectionPool T} {c c' : PoolCall T E} {e : PoolEvent T E}
    (h : PoolStep config s c e s' c') : s'.permits + (c'.committed + c'.uncommitted) =
      s.permits + (c.committed + c.uncommitted) := by
  cases h with
  | idle hc hc' => rw [hc.1, hc.2.1, hc'.1, hc'.2.1]
  | keep _ hc hc' hu hu' => rw [hc, hc', hu, hu']
  | permit h =>
      show s.permits - 1 + (0 + 1) = s.permits + (0 + 0)
      omega
  | take | miss =>
      rw [PoolCall.committed_close, PoolCall.uncommitted_close]
      rfl
  | invalid | count | putBack | prepare => rfl
  | fail hc hu hp hc' => rw [hc, hu, hc'.1, hc'.2.1]
  | release => rfl
  | sizeUp hc' | stock hc' | takeAll hc' =>
      rw [hc'.1, hc'.2.1]
      rfl

/-- Only two steps take up more room than they leave. -/
theorem PoolStep.reserves {s s' : ConnectionPool T} {c c' : PoolCall T E} {e : PoolEvent T E}
    (h : PoolStep config s c e s' c') :
    s'.available.length + (c'.committed + c'.prepared) ≤ s.available.length + (c.committed + c.prepared) ∨
    (∃ clock, c = .permitted ∧ e = .lock clock ∧ s.unexpired config clock = [] ∧ s'.available = [] ∧
      c'.committed = 1 ∧ c'.prepared = 0) ∨
    (∃ needed value now, c = .filling needed ∧ e = .create (.ok value) now ∧ s' = s ∧
      c'.committed = 0 ∧ c'.prepared = 1) := by
  cases h with
  | idle hc hc' => left; rw [hc.1, hc.2.2.2, hc'.1, hc'.2.2.2]
  | keep _ hc hc' _ _ hp hp' => left; rw [hc, hc', hp, hp']
  | @take clock pooled rest hu =>
      left
      have hsplit := s.unexpired_length_add config clock
      rw [hu, List.length_cons] at hsplit
      rw [PoolCall.committed_close, PoolCall.prepared_close]
      show rest.length + (1 + 0) ≤ s.available.length + (0 + 0)
      omega
  | miss hu =>
      exact Or.inr (Or.inl ⟨_, rfl, rfl, hu, rfl, PoolCall.committed_close, PoolCall.prepared_close⟩)
  | prepare => exact Or.inr (Or.inr ⟨_, _, _, rfl, rfl, rfl, rfl, rfl⟩)
  | permit | invalid | count | release => exact Or.inl (le_refl _)
  | fail hc hu hp hc' =>
      left
      rw [hc'.1, hc'.2.2.2]
      exact Nat.add_le_add_left (Nat.zero_le _) _
  | putBack =>
      left
      rw [List.length_append]
      show s.available.length + 1 + (0 + 0) ≤ s.available.length + (1 + 0)
      omega
  | @sizeUp clock _ hc' =>
      left
      have hsplit := s.unexpired_length_add config clock
      rw [hc'.1, hc'.2.2.2]
      show (s.unexpired config clock).length + (0 + 0) ≤ s.available.length + (0 + 0)
      omega
  | stock hc' =>
      left
      rw [hc'.1, hc'.2.2.2, List.length_append]
      show s.available.length + 1 + (0 + 0) ≤ s.available.length + (0 + 1)
      omega
  | takeAll hc' =>
      left
      rw [hc'.1, hc'.2.2.2]
      exact Nat.zero_le _

/-- Every permit is free or with a call, and there is room for all connections that are there or on the
way. -/
structure Reserved (config : PoolConfig) (p : Pool (ConnectionPool T) (PoolCall T E)) : Prop where
  permits : p.shared.permits + (p.total PoolCall.committed + p.total PoolCall.uncommitted) = config.maxSize
  room : reservedConnections p ≤ config.maxSize

theorem Reserved.fresh (config : PoolConfig) :
    Reserved config (ConnectionPool.fresh config : Pool (ConnectionPool T) (PoolCall T E)) :=
  ⟨rfl, Nat.zero_le _⟩

variable {p p' : Pool (ConnectionPool T) (PoolCall T E)} {ev : Event PoolCallKind (PoolEvent T E)}

theorem Reserved.step_permits (h : Reserved config p) (hs : (poolCalls config).step p ev = some p') :
    p'.shared.permits + (p'.total PoolCall.committed + p'.total PoolCall.uncommitted) = config.maxSize := by
  have hkeep := Program.conserves (f := ConnectionPool.permits)
    (g := fun c : PoolCall T E => c.committed + c.uncommitted)
    (fun s c e s' c' ha => (ConnectionPool.callStep_step ha).permits)
    (fun k => by cases k <;> rfl) hs
  rw [Pool.total_add, Pool.total_add] at hkeep
  exact hkeep.trans h.permits

theorem Reserved.step (h : Reserved config p) (hC : PruneFindsRoom config p ev)
    (hs : (poolCalls config).step p ev = some p') : Reserved config p' := by
  refine ⟨h.step_permits hs, ?_⟩
  have hroom := h.room
  have hpermits := h.permits
  unfold reservedConnections at hroom ⊢
  cases ev with
  | spawn k =>
      rw [Program.step_spawn] at hs
      cases hs
      have hidle : ((poolCalls config).start k : PoolCall T E).committed = 0 ∧
          ((poolCalls config).start k : PoolCall T E).prepared = 0 := by
        cases k <;> exact ⟨rfl, rfl⟩
      simpa [Pool.total, hidle] using hroom
  | act i e =>
      obtain ⟨c, s', c', hi, ha, rfl⟩ := Program.step_act.mp hs
      have hcommitted := sum_map_set PoolCall.committed c' hi
      have hprepared := sum_map_set PoolCall.prepared c' hi
      rcases (ConnectionPool.callStep_step ha).reserves with
        hle | ⟨clock, rfl, rfl, hnone, hempty, hc', hp'⟩ | ⟨needed, value, now, rfl, rfl, rfl, hc', hp'⟩
      · unfold Pool.total at hroom ⊢
        dsimp only
        omega
      · have hone : PoolCall.uncommitted (.permitted : PoolCall T E) ≤ p.total PoolCall.uncommitted :=
          le_total_of_mem _ (List.mem_of_getElem? hi)
        have hC' : 0 < p.total PoolCall.prepared →
            p.total PoolCall.committed + p.total PoolCall.prepared < config.maxSize := hC _ hi hnone
        have hpermitted : PoolCall.committed (.permitted : PoolCall T E) = 0 ∧
            PoolCall.prepared (.permitted : PoolCall T E) = 0 ∧
            PoolCall.uncommitted (.permitted : PoolCall T E) = 1 := ⟨rfl, rfl, rfl⟩
        rw [hc', hpermitted.1] at hcommitted
        rw [hp', hpermitted.2.1] at hprepared
        rw [hpermitted.2.2] at hone
        rw [hempty, List.length_nil]
        unfold Pool.total at *
        dsimp only
        omega
      · have hC' : reservedConnections p < config.maxSize := hC _ hi
        have hfilling : PoolCall.committed (.filling needed : PoolCall T E) = 0 ∧
            PoolCall.prepared (.filling needed : PoolCall T E) = 0 := ⟨rfl, rfl⟩
        rw [hc', hfilling.1] at hcommitted
        rw [hp', hfilling.2] at hprepared
        unfold reservedConnections at hC'
        unfold Pool.total at *
        dsimp only
        omega

theorem Reserved.alive_le (h : Reserved config p) : aliveConnections p ≤ config.maxSize := by
  have hle : p.total PoolCall.alive ≤ p.total fun c => c.committed + c.prepared :=
    List.sum_le_sum fun c _ => c.alive_le
  rw [Pool.total_add] at hle
  exact Nat.le_trans (Nat.add_le_add_left hle _) h.room

end NetworkSystem
