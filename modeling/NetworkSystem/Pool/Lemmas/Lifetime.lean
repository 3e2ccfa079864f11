import NetworkSystem.Pool.Lemmas.Step

/-!
# The age of connections

`created_at` is the time at which a connection was last put into the queue, so that the walk measures its
lifetime from there. The connection is as young as it should be when it was put back early enough.
-/

namespace NetworkSystem

open TaskPool Steps

variable {T E : Type} {config : PoolConfig}

/-! ## What the walk checks -/

theorem PooledConnection.of_not_expired {pooled : PooledConnection T} {now later : Nat}
    (h : pooled.isExpired config now later = false) :
    now - pooled.lastUsed ≤ config.idleTimeout ∧
      ∀ maxLifetime ∈ config.maxLifetime, now + later - pooled.createdAt ≤ maxLifetime := by
  unfold isExpired at h
  split at h
  · cases h
  · rename_i hidle
    refine ⟨Nat.le_of_not_lt hidle, ?_⟩
    intro maxLifetime hmax
    rw [Option.mem_def] at hmax
    rw [hmax] at h
    exact Nat.le_of_not_lt (of_decide_eq_false h)

/-- The first connection that the walk does not find expired, with its place. -/
def ConnectionPool.firstUnexpired (config : PoolConfig) (s : ConnectionPool T) (clock : SweepClock) :
    Option (PooledConnection T × Nat) :=
  s.available.zipIdx.find? fun pooled => !pooled.1.isExpired config (clock pooled.2).1 (clock pooled.2).2

/-- `acquire` takes the first connection that the walk does not find expired. -/
theorem ConnectionPool.takeAvailable_first (s : ConnectionPool T) (clock : SweepClock) :
    (s.takeAvailable config clock).2 =
      (.close ((s.firstUnexpired config clock).map fun pooled => pooled.1.connection)
        (s.expired config clock).length : PoolCall T E) := by
  have hfirst : (s.unexpired config clock).head? = (s.firstUnexpired config clock).map Prod.fst := by
    rw [unexpired, List.head?_map, List.head?_filter, firstUnexpired]
  rw [takeAvailable, removeExpired_eq]
  dsimp only
  rw [List.length_reverse]
  split
  · rename_i hcons
    rw [hcons, List.head?_cons] at hfirst
    obtain ⟨pooled, hpooled, hfst⟩ := Option.map_eq_some_iff.mp hfirst.symm
    rw [hpooled, Option.map_some, hfst]
  · rename_i hnil
    rw [hnil, List.head?_nil] at hfirst
    rw [Option.map_eq_none_iff.mp hfirst.symm, Option.map_none]

/-! ## Put back in time -/

/-- At `now`, the time since the creation of the connection leaves it the idle timeout within its lifetime. -/
def Connection.SparesLifetime (config : PoolConfig) (connection : Connection T) (now : Nat) : Prop :=
  now ≤ connection.born ∨
    ∀ maxLifetime ∈ config.maxLifetime, now - connection.born + config.idleTimeout ≤ maxLifetime

instance (connection : Connection T) (now : Nat) : Decidable (connection.SparesLifetime config now) :=
  inferInstanceAs (Decidable (_ ∨ ∀ _ ∈ _, _))

def PoolCall.putsBack : PoolCall T E → Option (Connection T)
  | .held connection | .filled connection _ => some connection
  | _ => none

/-- A connection is put into the queue when it is created, or while its lifetime has the idle timeout left. -/
def PutsBackInTime (config : PoolConfig) (p : Pool (ConnectionPool T) (PoolCall T E)) :
    Event PoolCallKind (PoolEvent T E) → Prop
  | .act i (.push now) =>
      ∀ c ∈ p.tasks[i]?, ∀ connection ∈ c.putsBack, connection.SparesLifetime config now
  | _ => True

instance (p : Pool (ConnectionPool T) (PoolCall T E)) (ev : Event PoolCallKind (PoolEvent T E)) :
    Decidable (PutsBackInTime config p ev) :=
  match ev with
  | .act i (.push now) =>
      inferInstanceAs (Decidable (∀ c ∈ p.tasks[i]?, ∀ connection ∈ c.putsBack,
        connection.SparesLifetime config now))
  | .spawn _ => isTrue trivial
  | .act _ .permit | .act _ .timeout | .act _ (.lock _) | .act _ .closed | .act _ (.validated _)
  | .act _ (.create _ _) | .act _ .count | .act _ .release | .act _ .drop => isTrue trivial

/-- At `now` the connection was created at most the lifetime before and put into the queue at most the idle
timeout before. -/
def Connection.InTime (config : PoolConfig) (connection : Connection T) (now : Nat) : Prop :=
  (∀ maxLifetime ∈ config.maxLifetime, now - connection.born ≤ maxLifetime) ∧
    now - connection.idleSince ≤ config.idleTimeout

def TakesInTime (config : PoolConfig) (p : Pool (ConnectionPool T) (PoolCall T E)) :
    Event PoolCallKind (PoolEvent T E) → Prop
  | .act i (.lock clock) =>
      p.tasks[i]? = some .permitted → ∀ taken ∈ p.shared.firstUnexpired config clock,
        taken.1.connection.InTime config (clock taken.2).1
  | _ => True

instance (connection : Connection T) (now : Nat) : Decidable (connection.InTime config now) :=
  inferInstanceAs (Decidable (_ ∧ _))

instance [DecidableEq T] [DecidableEq E] (p : Pool (ConnectionPool T) (PoolCall T E))
    (ev : Event PoolCallKind (PoolEvent T E)) : Decidable (TakesInTime config p ev) :=
  match ev with
  | .act _ (.lock _) => inferInstanceAs (Decidable (_ → ∀ _ ∈ _, _))
  | .spawn _ => isTrue trivial
  | .act _ .permit | .act _ .timeout | .act _ (.push _) | .act _ .closed | .act _ (.validated _)
  | .act _ (.create _ _) | .act _ .count | .act _ .release | .act _ .drop => isTrue trivial

/-- The times of every connection in the queue are that at which it was put there, and that was in time. -/
def QueuedInTime (config : PoolConfig) (s : ConnectionPool T) : Prop :=
  ∀ pooled ∈ s.available, pooled.createdAt = pooled.connection.idleSince ∧
    pooled.lastUsed = pooled.connection.idleSince ∧
    pooled.connection.SparesLifetime config pooled.connection.idleSince

theorem QueuedInTime.subset {s s' : ConnectionPool T} (h : QueuedInTime config s)
    (hsub : ∀ pooled ∈ s'.available, pooled ∈ s.available) : QueuedInTime config s' :=
  fun pooled hp => h pooled (hsub pooled hp)

theorem QueuedInTime.put {s : ConnectionPool T} {connection : Connection T} {now total : Nat}
    (h : QueuedInTime config s) (hc : connection.SparesLifetime config now) :
    QueuedInTime config { s with available := s.available ++ [.new connection now], totalConnections := total } := by
  intro pooled hp
  rcases List.mem_append.mp hp with hp | hp
  · exact h pooled hp
  · rw [List.mem_singleton] at hp
    subst hp
    exact ⟨rfl, rfl, hc⟩

theorem PoolStep.queuedInTime {s s' : ConnectionPool T} {c c' : PoolCall T E} {e : PoolEvent T E}
    (h : PoolStep config s c e s' c') (hq : QueuedInTime config s)
    (hC : ∀ now, e = .push now → ∀ connection ∈ c.putsBack, connection.SparesLifetime config now) :
    QueuedInTime config s' := by
  cases h with
  | idle | keep | invalid | prepare => exact hq
  | permit | count | fail | release => exact hq
  | @take clock _ _ hu =>
      refine hq.subset fun pooled hp => ?_
      have hmem : pooled ∈ s.unexpired config clock := by
        rw [hu]
        exact List.mem_cons_of_mem _ hp
      exact ConnectionPool.unexpired_subset hmem
  | miss hu => exact hq.subset nofun
  | putBack => exact hq.put (hC _ rfl _ rfl)
  | sizeUp => exact hq.subset fun pooled hp => ConnectionPool.unexpired_subset hp
  | stock => exact hq.put (hC _ rfl _ rfl)
  | takeAll => exact hq.subset nofun

theorem QueuedInTime.takes {s : ConnectionPool T} {clock : SweepClock} {pooled : PooledConnection T}
    {place : Nat} (h : QueuedInTime config s)
    (hfirst : s.firstUnexpired config clock = some (pooled, place)) :
    pooled.connection.InTime config (clock place).1 := by
  have hmem : pooled ∈ s.available := List.fst_mem_of_mem_zipIdx (List.mem_of_find?_eq_some hfirst)
  have hfresh : pooled.isExpired config (clock place).1 (clock place).2 = false := by
    simpa using List.find?_some hfirst
  obtain ⟨hcreated, hused, hspares⟩ := h pooled hmem
  obtain ⟨hidle, hlife⟩ := PooledConnection.of_not_expired hfresh
  rw [hused] at hidle
  refine ⟨?_, hidle⟩
  intro maxLifetime hmax
  have hlife' := hlife maxLifetime hmax
  rw [hcreated] at hlife'
  rcases hspares with hspares | hspares
  · omega
  · have := hspares maxLifetime hmax
    omega

variable {p p' : Pool (ConnectionPool T) (PoolCall T E)} {ev : Event PoolCallKind (PoolEvent T E)}

theorem QueuedInTime.step (h : QueuedInTime config p.shared) (hC : PutsBackInTime config p ev)
    (hs : (poolCalls config).step p ev = some p') : QueuedInTime config p'.shared := by
  cases ev with
  | spawn k =>
      rw [Program.step_spawn] at hs
      cases hs
      exact h
  | act i e =>
      obtain ⟨c, s', c', hi, ha, rfl⟩ := Program.step_act.mp hs
      refine (ConnectionPool.callStep_step ha).queuedInTime h ?_
      rintro now rfl
      exact hC c hi

theorem QueuedInTime.takesInTime (h : QueuedInTime config p.shared) : TakesInTime config p ev := by
  cases ev with
  | spawn k => trivial
  | act i e =>
      cases e with
      | lock clock =>
          rintro - ⟨pooled, place⟩ hfirst
          exact h.takes hfirst
      | _ => trivial

end NetworkSystem
