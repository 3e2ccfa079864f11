import NetworkSystem.Pool.Lemmas.Underflow
import NetworkSystem.Pool.Lemmas.Bound
import NetworkSystem.Pool.Lemmas.Lifetime
import NetworkSystem.Pool.Lemmas.Ownership
import NetworkSystem.Pool.Lemmas.Waiting

/-!
# What the connection pool promises

The count is right as long as no connection that `acquire` has taken turns out invalid, the size is bounded as
long as `prune_idle` finds room, and the lifetime is enforced as far as the idle timeout covers it. No connection is
handed out twice, no permit is lost, and no call waits for ever on a pool whose guards are dropped.
-/

namespace NetworkSystem

open TaskPool Steps

variable {T E : Type}

/-- A connection lives for 10 at most and is idle for 9 at most. -/
abbrev smallPool (minSize maxSize : Nat) : PoolConfig :=
  { minSize, maxSize, idleTimeout := 9, maxLifetime := some 10 }

def onCall (i : Nat) (es : List (PoolEvent Nat Unit)) : List (Event PoolCallKind (PoolEvent Nat Unit)) :=
  acts i es

/-- A call of `acquire` that creates a connection: the steps from the permit to the lock that counts it. -/
def acquireNew (value now : Nat) : List (PoolEvent Nat Unit) :=
  [.permit, .lock fun _ => (now, 0), .create (.ok value) now, .count]

/-! ## Accounting -/

/-- In every state that a run reaches with no call of `acquire` and of `prune_idle` under way: the connections
that are counted are those in the queue and those in guards, if and only if no call of `acquire` has found the
connection it had taken to be invalid, or was dropped while it had one. -/
theorem pool_accounting_iff (config : PoolConfig) (es : List (Event PoolCallKind (PoolEvent T E)))
    (p : Pool (ConnectionPool T) (PoolCall T E))
    (hr : run (poolCalls config).step (ConnectionPool.fresh config) es = some p)
    (hrest : ∀ c ∈ p.tasks, c.underway = false) :
    p.shared.totalConnections = p.shared.available.length + p.tasks.countP PoolCall.isHeld ↔
      Along (poolCalls config).step KeepsConnections (ConnectionPool.fresh config) es := by
  rw [← pool_books hr, ownedConnections, Pool.total, PoolCall.sum_inHand hrest]

/-- A connection is handed out, put back and handed out again. -/
def reuse (valid : Bool) : List (Event PoolCallKind (PoolEvent Nat Unit)) :=
  .spawn .acquire :: onCall 0 (acquireNew 7 0 ++ [.push 1, .release]) ++
    .spawn .acquire :: onCall 1 [.permit, .lock fun _ => (2, 0), .validated valid]

theorem pool_accounting_reused :
    ∃ p, run (poolCalls {}).step (ConnectionPool.fresh {}) (reuse true) = some p ∧
      p.shared.totalConnections = p.shared.available.length + p.tasks.countP PoolCall.isHeld := by
  refine ⟨_, rfl, ?_⟩
  exact (pool_accounting_iff {} (reuse true) _ rfl (by decide)).mpr (by decide)

/-- The connection is found invalid, and the new one is counted beside it. -/
theorem pool_counts_invalid :
    ∃ p, run (poolCalls {}).step (ConnectionPool.fresh {})
        (reuse false ++ onCall 1 [.create (.ok 8) 3, .count]) = some p ∧
      (∀ c ∈ p.tasks, c.underway = false) ∧ p.shared.available.length = 0 ∧
      p.tasks.countP PoolCall.isHeld = 1 ∧ p.shared.totalConnections = 2 :=
  ⟨_, rfl, by decide, by decide, by decide, by decide⟩

/-! ## Sweeping -/

/-- From every queue, at whatever times the walk reads the clock, `remove_expired` returns each expired connection
once, from the last place to the first, and leaves the others in their order; where its subtractions stay above
zero it lowers the count by the number of those it returns. In every state that a run reaches, its subtractions and
those of `shutdown` do. -/
theorem pool_sweep_exact (config : PoolConfig) (es : List (Event PoolCallKind (PoolEvent T E))) :
    (∀ (s : ConnectionPool T) clock,
      (s.removeExpired config clock).2 = (s.expired config clock).reverse ∧
      (s.removeExpired config clock).1.available = s.unexpired config clock ∧
      ∀ s' closing, s.removeExpiredChecked config clock = some (s', closing) ↔
        closing = (s.expired config clock).reverse ∧ s'.available = s.unexpired config clock ∧
          s'.totalConnections + closing.length = s.totalConnections ∧ s'.permits = s.permits) ∧
    Always (poolCalls config).step (fun p => p.shared.NeverUnderflows config) (ConnectionPool.fresh config) es := by
  constructor
  · intro s clock
    rw [ConnectionPool.removeExpired_eq]
    exact ⟨rfl, rfl, fun s' closing => ConnectionPool.removeExpiredChecked_iff⟩
  · intro pre p _ hr
    exact neverUnderflows_of_owned (run_invariant (fun _ _ _ hle hs => owned_le_step hle hs) owned_le_fresh hr)

/-! ## Size -/

/-- In every run in which `prune_idle` finds room for what it creates, the connections in the queue, in guards
and in the hands of calls are never more than `max_size`. -/
theorem pool_bound (config : PoolConfig) (es : List (Event PoolCallKind (PoolEvent T E)))
    (hroom : Along (poolCalls config).step (PruneFindsRoom config) (ConnectionPool.fresh config) es) :
    Always (poolCalls config).step (fun p => aliveConnections p ≤ config.maxSize)
      (ConnectionPool.fresh config) es :=
  always_of_preserves (fun _ _ _ h hC hs => Reserved.step h hC hs) (fun _ h => h.alive_le)
    (Reserved.fresh config) hroom

/-- `prune_idle` fills the pool up, and a call of `acquire` takes what it has created. -/
def fillAndTake : List (Event PoolCallKind (PoolEvent Nat Unit)) :=
  .spawn .pruneIdle ::
    onCall 0 [.lock fun _ => (0, 0), .create (.ok 5) 0, .push 0, .create (.ok 6) 1, .push 1] ++
    .spawn .acquire :: onCall 1 [.permit, .lock fun _ => (2, 0), .validated true]

theorem pool_bound_filled :
    Always (poolCalls (smallPool 2 2)).step (fun p => aliveConnections p ≤ 2)
      (ConnectionPool.fresh (smallPool 2 2)) fillAndTake :=
  pool_bound (smallPool 2 2) fillAndTake (by decide)

/-- `prune_idle` sees an empty pool, and two calls of `acquire` fill it before `prune_idle` creates. -/
def fillTwice : List (Event PoolCallKind (PoolEvent Nat Unit)) :=
  .spawn .pruneIdle :: onCall 0 [.lock fun _ => (0, 0)] ++
    .spawn .acquire :: onCall 1 (acquireNew 5 0) ++
    .spawn .acquire :: onCall 2 (acquireNew 6 0) ++
    onCall 0 [.create (.ok 7) 1, .push 1]

theorem pool_exceeds_max_size :
    ∃ p, run (poolCalls (smallPool 2 2)).step (ConnectionPool.fresh (smallPool 2 2)) fillTwice = some p ∧
      p.tasks.countP PoolCall.isHeld = 2 ∧ p.shared.available.length = 1 ∧
      (smallPool 2 2).maxSize < aliveConnections p :=
  ⟨_, rfl, by decide, by decide, by decide⟩

/-! ## Lifetime -/

/-- In every run in which a connection is put into the queue only when it is new or while its lifetime has the
idle timeout left, every connection that `acquire` takes is within its lifetime and its idle timeout. -/
theorem pool_lifetime (config : PoolConfig) (es : List (Event PoolCallKind (PoolEvent T E)))
    (hback : Along (poolCalls config).step (PutsBackInTime config) (ConnectionPool.fresh config) es) :
    Along (poolCalls config).step (TakesInTime config) (ConnectionPool.fresh config) es := by
  refine along_of_preserves (I := fun p => QueuedInTime config p.shared) ?_ ?_ nofun hback
  · intro p ev p' h hC hs
    exact h.step hC hs
  · intro p ev h _
    exact h.takesInTime

/-- A connection of time 0 is put back at `back` and asked for at `again`. -/
def takeAgain (back again : Nat) : List (Event PoolCallKind (PoolEvent Nat Unit)) :=
  .spawn .acquire :: onCall 0 (acquireNew 7 0 ++ [.push back, .release]) ++
    .spawn .acquire :: onCall 1 [.permit, .lock fun _ => (again, 0)]

theorem pool_lifetime_returned_early :
    Along (poolCalls (smallPool 0 3)).step (TakesInTime (smallPool 0 3)) (ConnectionPool.fresh (smallPool 0 3))
      (takeAgain 1 10) :=
  pool_lifetime (smallPool 0 3) (takeAgain 1 10) (by decide)

/-- Put back at 8, the connection is taken at 17 with a lifetime of 10. -/
theorem pool_takes_expired :
    ¬ Along (poolCalls (smallPool 0 3)).step (TakesInTime (smallPool 0 3))
      (ConnectionPool.fresh (smallPool 0 3)) (takeAgain 8 17) := by
  decide

/-! ## Ownership -/

/-- In every state that a run reaches, the connections that it created are those in the queue, those that calls and
guards have, those that it took out to be closed and those that it dropped; where `T::create` never returns one of
them twice, none is at two places. What a run has lost it has lost for good. -/
theorem pool_keeps_track (config : PoolConfig) (es : List (Event PoolCallKind (PoolEvent T E)))
    (p : Pool (ConnectionPool T) (PoolCall T E))
    (hr : run (poolCalls config).step (ConnectionPool.fresh config) es = some p) :
    (p.shared.queued ++ p.tasks.flatMap PoolCall.owns ++
        (ConnectionPool.retired config es ++ ConnectionPool.givenUp config es)).Perm (ConnectionPool.created es) ∧
      ((ConnectionPool.created es).Nodup →
        OneOwner p (ConnectionPool.retired config es ++ ConnectionPool.givenUp config es)) ∧
      ∀ pre, pre <+: es → ConnectionPool.retired config pre <+: ConnectionPool.retired config es ∧
        ConnectionPool.givenUp config pre <+: ConnectionPool.givenUp config es := by
  have hledger := pool_ledger hr
  refine ⟨hledger, fun hdistinct => .of_nodup (hledger.nodup_iff.mpr hdistinct), ?_⟩
  rintro pre ⟨post, rfl⟩
  obtain ⟨p₁, hpre, -⟩ := run_append.mp hr
  exact ⟨⟨_, (givenAway_append hpre).symm⟩, ⟨_, (givenAway_append hpre).symm⟩⟩

/-- The connection that was handed out again is found invalid, and another one is held in its place. -/
theorem pool_keeps_track_of_invalid :
    ∃ p, run (poolCalls {}).step (ConnectionPool.fresh {})
        (reuse false ++ onCall 1 [.create (.ok 8) 3, .count]) = some p ∧ p.tasks[1]? = some (.held ⟨8, 3, 3⟩) ∧
      OneOwner p [7] := by
  refine ⟨_, rfl, by decide, ?_⟩
  exact (pool_keeps_track {} (reuse false ++ onCall 1 [.create (.ok 8) 3, .count]) _ rfl).2.1 (by decide)

/-! ## Waiting -/

/-- In every state that a run reaches, errors, timeouts and dropped futures included, each permit is free or with one
call. From there the pool comes to rest: as long as no future is dropped and none times out, there is a bound on the
steps that are left, and the calls can always go on to a state in which there are none, where guards are dropped
and the code of the connections answers, with an error or not. Then all permits are free and all calls are over, but
for calls of `acquire` on a pool of size zero. -/
theorem pool_comes_to_rest [Nonempty (Except E T)] (config : PoolConfig)
    (es : List (Event PoolCallKind (PoolEvent T E))) (p : Pool (ConnectionPool T) (PoolCall T E))
    (hr : run (poolCalls config).step (ConnectionPool.fresh config) es = some p) :
    p.shared.permits + p.tasks.countP PoolCall.hasPermit = config.maxSize ∧
    (∃ fs p', (∀ e ∈ fs, e.IsOwn PoolEvent.goesOn) ∧ run (poolCalls config).step p fs = some p' ∧
      Quiet (poolCalls config).step (Event.IsOwn PoolEvent.goesOn) p') ∧
    ∀ fs p', (∀ e ∈ fs, e.IsOwn PoolEvent.goesOn) → run (poolCalls config).step p fs = some p' →
      fs.length ≤ p.shared.available.length + p.total (PoolCall.stepsLeft config) ∧
      (Quiet (poolCalls config).step (Event.IsOwn PoolEvent.goesOn) p' → p'.shared.permits = config.maxSize ∧
        ∀ c ∈ p'.tasks, c.ended = true ∨ (c = .acquiring ∧ config.maxSize = 0)) := by
  obtain ⟨hrests, hlength⟩ := Program.rests (P := poolCalls config) ConnectionPool.callStep_stepsLeft p
  refine ⟨ConnectionPool.permits_held hr, hrests, fun fs p' hfs hr' => ⟨hlength fs p' hfs hr', fun hquiet => ?_⟩⟩
  have hpermits := ConnectionPool.permits_held (run_append.mpr ⟨p, hr, hr'⟩)
  have hends : ∀ c ∈ p'.tasks, c.ended = true ∨ (c = .acquiring ∧ p'.shared.permits = 0) := fun c hc =>
    ConnectionPool.ended_of_quiet fun _ he => Program.act_none_of_quiet hquiet hc he
  have hnone : p'.tasks.countP PoolCall.hasPermit = 0 := by
    rw [List.countP_eq_zero]
    intro c hc
    rcases hends c hc with hended | ⟨rfl, _⟩
    · rw [ConnectionPool.hasPermit_of_ended hended]
      exact Bool.false_ne_true
    · exact Bool.false_ne_true
  rw [hnone, Nat.add_zero] at hpermits
  refine ⟨hpermits, fun c hc => ?_⟩
  rw [← hpermits]
  exact hends c hc

/-- One connection is handed out, and a second call times out. -/
theorem pool_of_one_comes_to_rest : ∃ p, run (poolCalls (smallPool 0 1)).step (ConnectionPool.fresh (smallPool 0 1))
      (.spawn .acquire :: onCall 0 (acquireNew 7 0) ++ .spawn .acquire :: onCall 1 [.timeout]) = some p ∧
    p.shared.permits + p.tasks.countP PoolCall.hasPermit = 1 := by
  refine ⟨_, rfl, ?_⟩
  exact (pool_comes_to_rest (smallPool 0 1) (.spawn .acquire :: onCall 0 (acquireNew 7 0) ++
    .spawn .acquire :: onCall 1 [.timeout]) _ rfl).1

end NetworkSystem
