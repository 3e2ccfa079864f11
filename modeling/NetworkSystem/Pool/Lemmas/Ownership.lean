import NetworkSystem.Pool.Ownership
import NetworkSystem.Pool.Lemmas.Sweep

/-!
# The ledger of the connections

Each step of a call keeps the connections of the queue and of the calls but for what it creates, retires or
gives up. A run has then put every connection that it created at exactly one place.
-/

namespace NetworkSystem

open TaskPool Steps

variable {T E : Type} {config : PoolConfig} {s s' : ConnectionPool T} {c c' : PoolCall T E} {e : PoolEvent T E}

namespace PoolCall

variable {taken : Option (Connection T)} {left needed : Nat}

theorem owns_close : (close taken left : PoolCall T E).owns = (taken.map (·.value)).toList := by
  cases left <;> cases taken <;> rfl

theorem owns_fill : (fill needed : PoolCall T E).owns = [] := by
  cases needed <;> rfl

theorem owns_sweep : (sweep needed left : PoolCall T E).owns = [] := by
  cases left with
  | zero => exact owns_fill
  | succ left => rfl

theorem owns_drain : (drain left : PoolCall T E).owns = [] := by
  cases left <;> rfl

theorem owns_start (k : PoolCallKind) : (k.start : PoolCall T E).owns = [] := by
  cases k <;> rfl

end PoolCall

/-! ## One step -/

namespace ConnectionPool

/-- What the walk takes out and what it leaves are the queue. -/
theorem queued_split (config : PoolConfig) (s : ConnectionPool T) (clock : SweepClock) :
    (↑((s.unexpired config clock).map (·.connection.value)) : Multiset T) +
      ↑((s.removeExpired config clock).2.map (·.value)) = ↑s.queued := by
  let value : PooledConnection T × Nat → T := fun pooled => pooled.1.connection.value
  let out : PooledConnection T × Nat → Bool := fun pooled =>
    pooled.1.isExpired config (clock pooled.2).1 (clock pooled.2).2
  have hqueued : s.queued = s.available.zipIdx.map value := by
    have hfst := congrArg (List.map fun pooled : PooledConnection T => pooled.connection.value)
      (List.zipIdx_map_fst 0 s.available)
    rw [List.map_map] at hfst
    exact hfst.symm
  have hleft : (s.unexpired config clock).map (·.connection.value) =
      (s.available.zipIdx.filter fun pooled => !out pooled).map value := by
    rw [unexpired, List.map_map]; rfl
  have hout : (s.removeExpired config clock).2.map (·.value) =
      ((s.available.zipIdx.filter out).map value).reverse := by
    rw [removeExpired_eq, expired, List.map_reverse, List.map_map]; rfl
  rw [hqueued, hleft, hout, Multiset.coe_reverse, add_comm, Multiset.coe_add, ← List.map_append]
  exact Multiset.coe_eq_coe.mpr ((List.filter_append_perm out _).map value)

theorem takeAvailable_queued {clock : SweepClock} (h : s.takeAvailable config clock = (s', c')) :
    (↑s'.queued : Multiset T) + ↑c'.owns = ↑((s.unexpired config clock).map (·.connection.value)) := by
  rw [takeAvailable, removeExpired_eq] at h
  dsimp only at h
  split at h
  · rename_i pooled available hsome
    cases h
    rw [PoolCall.owns_close, hsome, List.map_cons, ← Multiset.cons_coe, ← Multiset.singleton_add, add_comm]
    rfl
  · rename_i hnone
    cases h
    rw [PoolCall.owns_close, hnone]
    rfl

theorem queued_push (connection : Connection T) (now total : Nat) :
    (↑(ConnectionPool.queued { s with available := s.available ++ [.new connection now]
                                      totalConnections := total }) : Multiset T) =
      ↑s.queued + ↑[connection.value] := by
  rw [queued, List.map_append, ← Multiset.coe_add]
  rfl

/-- Each step of a call keeps the connections but for what it creates, retires or gives up. -/
theorem callStep_ledger (h : callStep config s c e = some (s', c')) :
    (↑s'.queued : Multiset T) + ↑c'.owns + ↑(c.retires config s e ++ c.givesUp e) =
      ↑s.queued + ↑c.owns + ↑e.creates := by
  unfold callStep at h
  split at h
  -- a call of `acquire`
  · split at h
    · cases h
    · cases h; rfl
  · cases h; rfl
  · cases h; rfl
  · rename_i clock
    have htaken := takeAvailable_queued (Option.some.inj h)
    have hsplit := s.queued_split config clock
    have haway : PoolCall.retires config s (.permitted : PoolCall T E) (.lock clock) ++
        PoolCall.givesUp (.permitted : PoolCall T E) (.lock clock) =
          (s.removeExpired config clock).2.map (·.value) := List.append_nil _
    rw [htaken, haway, hsplit]
    exact ((add_zero _).trans (add_zero _)).symm
  · cases h
    rw [PoolCall.owns_close]; rfl
  · cases h; rfl
  · cases h
    exact add_right_comm _ _ _
  · cases h
    exact add_right_comm _ _ 0
  · cases h; rfl
  · cases h; rfl
  · cases h
    exact add_right_comm _ _ _
  · cases h
    exact add_right_comm _ _ _
  · cases h; rfl
  · cases h
    rw [queued_push]
    exact add_zero _
  · cases h; rfl
  -- a call of `prune_idle`
  · rename_i clock
    rw [sizeUp, removeExpired_eq] at h
    cases h
    rw [PoolCall.owns_sweep]
    have haway : PoolCall.retires config s (.pruning : PoolCall T E) (.lock clock) ++
        PoolCall.givesUp (.pruning : PoolCall T E) (.lock clock) =
          (s.removeExpired config clock).2.map (·.value) := List.append_nil _
    rw [haway, add_right_comm]
    exact congrArg (· + 0) ((s.queued_split config clock).trans (add_zero _).symm)
  · cases h
    rw [PoolCall.owns_sweep]; rfl
  · cases h
    exact add_right_comm _ _ 0
  · cases h
    rw [PoolCall.owns_fill]; rfl
  · cases h
    rw [PoolCall.owns_fill, queued_push]
    exact add_zero _
  iterate 3 cases h; rfl
  -- a call of `shutdown`
  · rename_i clock
    cases h
    rw [PoolCall.owns_drain]
    have haway : PoolCall.retires config s (.shutting : PoolCall T E) (.lock clock) ++
        PoolCall.givesUp (.shutting : PoolCall T E) (.lock clock) = s.queued := List.append_nil _
    rw [haway]
    exact (zero_add _).trans ((add_zero _).trans (add_zero _)).symm
  · cases h
    rw [PoolCall.owns_drain]; rfl
  iterate 2 cases h; rfl
  cases h

end ConnectionPool

/-! ## A run -/

/-- The connections of the queue and of the calls. -/
def ConnectionPool.tracked (p : Pool (ConnectionPool T) (PoolCall T E)) : Multiset T :=
  ↑p.shared.queued + p.total fun c => (↑c.owns : Multiset T)

theorem pool_ledger_step {p p' : Pool (ConnectionPool T) (PoolCall T E)}
    {ev : Event PoolCallKind (PoolEvent T E)} (hs : (poolCalls config).step p ev = some p') :
    ConnectionPool.tracked p' +
        ↑(p.givesAway (PoolCall.retires config) ev ++ p.givesAway (fun _ => PoolCall.givesUp) ev) =
      ConnectionPool.tracked p + ↑(ev.takes PoolEvent.creates) := by
  have hstart : ∀ k : PoolCallKind, (↑((poolCalls (T := T) (E := E) config).start k).owns : Multiset T) = 0 :=
    fun k => congrArg _ (PoolCall.owns_start k)
  have hact : ∀ s c e s' c', (poolCalls (T := T) (E := E) config).act s c e = some (s', c') →
      (↑s'.queued : Multiset T) + ↑c'.owns + ↑(c.retires config s e ++ c.givesUp e) =
        ↑s.queued + ↑c.owns + ↑e.creates :=
    fun s c e s' c' h => ConnectionPool.callStep_ledger h
  rw [← Pool.givesAway_append]
  exact Program.ledger hact hstart hs

/-- The connections that a run creates are those in the queue, those that the calls have, those that it took out to
be closed and those that it dropped. -/
theorem pool_ledger {es : List (Event PoolCallKind (PoolEvent T E))} {p : Pool (ConnectionPool T) (PoolCall T E)}
    (hr : run (poolCalls config).step (ConnectionPool.fresh config) es = some p) :
    (p.shared.queued ++ p.tasks.flatMap PoolCall.owns ++
      (ConnectionPool.retired config es ++ ConnectionPool.givenUp config es)).Perm (ConnectionPool.created es) := by
  have hstep : ∀ p ev p', (poolCalls (T := T) (E := E) config).step p ev = some p' → _ :=
    fun _ _ _ hs => pool_ledger_step hs
  have hledger := run_ledger hstep hr
  have hcalls : ∀ calls : List (PoolCall T E),
      (calls.map fun c => (↑c.owns : Multiset T)).sum = ↑(calls.flatMap PoolCall.owns) := by
    intro calls
    induction calls with
    | nil => rfl
    | cons c calls ih => rw [List.map_cons, List.sum_cons, ih, List.flatMap_cons, Multiset.coe_add]
  rw [givenAway_append_out, ConnectionPool.tracked, Pool.total, hcalls] at hledger
  simp only [Multiset.coe_add] at hledger
  exact Multiset.coe_eq_coe.mp (hledger.trans (zero_add _))

theorem OneOwner.of_nodup {p : Pool (ConnectionPool T) (PoolCall T E)} {gone : List T}
    (h : (p.shared.queued ++ p.tasks.flatMap PoolCall.owns ++ gone).Nodup) : OneOwner p gone := by
  obtain ⟨hkept, hgone, hapart⟩ := List.nodup_append.mp h
  obtain ⟨hqueued, hcalls, hbetween⟩ := List.nodup_append.mp hkept
  have hown : ∀ c ∈ p.tasks, ∀ v ∈ c.owns, v ∈ p.tasks.flatMap PoolCall.owns :=
    fun c hc v hv => List.mem_flatMap.mpr ⟨c, hc, hv⟩
  constructor
  · exact hqueued
  · intro i j c d hi hj v hc hd
    obtain ⟨hli, rfl⟩ := List.getElem?_eq_some_iff.mp hi
    obtain ⟨hlj, rfl⟩ := List.getElem?_eq_some_iff.mp hj
    have hpairs := List.pairwise_iff_getElem.mp (List.nodup_flatMap.mp hcalls).2
    rcases Nat.lt_trichotomy i j with hlt | heq | hlt
    · exact absurd hd (hpairs i j hli hlj hlt hc)
    · exact heq
    · exact absurd hc (hpairs j i hlj hli hlt hd)
  · intro c hc v hv
    have hmem := hown c hc v hv
    exact ⟨fun hq => hbetween v hq v hmem rfl, fun hg => hapart v (List.mem_append_right _ hmem) v hg rfl⟩
  · exact fun v hv hg => hapart v (List.mem_append_left _ hv) v hg rfl
  · exact hgone

end NetworkSystem
