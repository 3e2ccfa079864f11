import NetworkSystem.Lib.Quiescence
import NetworkSystem.Pool.Lemmas.Bound

/-!
# Where the calls on a pool wait

A call takes its steps as long as the code of the connections answers; only a permit is something that it may have
to wait for. Every connection that a walk takes out of the queue is one more to be closed, and so the work that is
left is counted over the queue and the calls.
-/

namespace NetworkSystem

open TaskPool Steps

variable {T E : Type} {config : PoolConfig}

/-- The event is neither the timeout of a call nor the drop of its future. A guard is dropped some time. -/
def PoolEvent.goesOn : PoolEvent T E → Prop
  | .timeout | .drop => False
  | _ => True

namespace PoolCall

/-- The call has a permit. -/
def hasPermit : PoolCall T E → Bool
  | .permitted | .closing _ _ | .validating _ | .creating | .created _ | .held _ | .returned => true
  | _ => false

/-- The call is over, and so is its guard. -/
def ended : PoolCall T E → Bool
  | .released | .failed _ | .dropped | .pruned | .shut => true
  | _ => false

/-- The steps that are left to the call, and for each connection that it puts into the queue one to close it. -/
def stepsLeft (config : PoolConfig) : PoolCall T E → Nat
  | .acquiring => 9
  | .permitted => 8
  | .closing _ left => left + 7
  | .validating _ => 6
  | .creating => 5
  | .created _ => 4
  | .held _ => 3
  | .returned => 1
  | .pruning => 3 * config.minSize + 2
  | .sweeping needed left => 3 * needed + left + 1
  | .filling needed => 3 * (needed - 1) + 3
  | .filled _ needed => 3 * needed + 2
  | .shutting => 2
  | .draining left => left + 1
  | .released | .failed _ | .dropped | .pruned | .shut => 0

theorem hasPermit_toNat (c : PoolCall T E) : c.committed + c.uncommitted = c.hasPermit.toNat := by
  cases c <;> rfl

theorem stepsLeft_close (config : PoolConfig) (taken : Option (Connection T)) (left : Nat) :
    (close taken left : PoolCall T E).stepsLeft config ≤ left + 7 := by
  cases left <;> cases taken <;> simp [close, stepsLeft]

theorem stepsLeft_fill (config : PoolConfig) (needed : Nat) : (fill needed : PoolCall T E).stepsLeft config ≤ 3 * needed := by
  cases needed with
  | zero => exact le_rfl
  | succ needed => exact le_of_eq (Nat.mul_succ 3 needed).symm

theorem stepsLeft_sweep (config : PoolConfig) (needed left : Nat) :
    (sweep needed left : PoolCall T E).stepsLeft config ≤ 3 * needed + left + 1 := by
  cases left with
  | zero => exact (stepsLeft_fill config needed).trans (by omega)
  | succ left => exact le_rfl

theorem stepsLeft_drain (config : PoolConfig) (left : Nat) : (drain left : PoolCall T E).stepsLeft config ≤ left + 1 := by
  cases left <;> simp [drain, stepsLeft]

end PoolCall

namespace ConnectionPool

variable {s s' : ConnectionPool T} {c c' : PoolCall T E} {e : PoolEvent T E}

theorem takeAvailable_stepsLeft {clock : SweepClock} (h : s.takeAvailable config clock = (s', c')) :
    s'.available.length + c'.stepsLeft config ≤ s.available.length + 7 := by
  have hsplit := s.unexpired_length_add config clock
  rw [takeAvailable, removeExpired_eq] at h
  dsimp only at h
  rw [List.length_reverse] at h
  split at h
  · rename_i pooled rest hunexpired
    cases h
    have hclose := PoolCall.stepsLeft_close (E := E) config (some pooled.connection) (s.expired config clock).length
    rw [hunexpired, List.length_cons] at hsplit
    show rest.length + _ ≤ _
    omega
  · rename_i hunexpired
    cases h
    have hclose := PoolCall.stepsLeft_close (T := T) (E := E) config none (s.expired config clock).length
    show (s.unexpired config clock).length + _ ≤ _
    omega

theorem sizeUp_stepsLeft {clock : SweepClock} (h : s.sizeUp config clock = (s', c')) :
    s'.available.length + c'.stepsLeft config ≤ s.available.length + (3 * config.minSize + 1) := by
  have hsplit := s.unexpired_length_add config clock
  rw [sizeUp, removeExpired_eq] at h
  cases h
  have hsweep := PoolCall.stepsLeft_sweep (T := T) (E := E) config
    (config.minSize - (s.totalConnections - (s.expired config clock).length)) (s.expired config clock).reverse.length
  rw [List.length_reverse] at hsweep ⊢
  dsimp only
  omega

theorem callStep_stepsLeft (s : ConnectionPool T) (c : PoolCall T E) (e : PoolEvent T E) (s' : ConnectionPool T)
    (c' : PoolCall T E) (he : e.goesOn) (h : callStep config s c e = some (s', c')) :
    s'.available.length + c'.stepsLeft config < s.available.length + c.stepsLeft config := by
  unfold callStep at h
  split at h
  -- a call of `acquire`
  · split at h <;> cases h
    simp [PoolCall.stepsLeft]
  · exact he.elim
  · exact he.elim
  · have hle := takeAvailable_stepsLeft (Option.some.inj h)
    show _ < s.available.length + 8
    omega
  · rename_i taken left
    cases h
    have hclose := PoolCall.stepsLeft_close (E := E) config taken (left - 1)
    cases left with
    | zero => cases taken <;> simp [PoolCall.close, PoolCall.stepsLeft]
    | succ left =>
        show _ < s.available.length + (left + 1 + 7)
        rw [Nat.add_sub_cancel] at hclose ⊢
        omega
  iterate 5 cases h; simp [PoolCall.stepsLeft]
  iterate 3 exact he.elim
  iterate 2
    cases h
    simp [PoolCall.stepsLeft]
  -- a call of `prune_idle`
  · have hle := sizeUp_stepsLeft (Option.some.inj h)
    show _ < s.available.length + (3 * config.minSize + 2)
    omega
  · rename_i needed left
    cases h
    have hsweep := PoolCall.stepsLeft_sweep (T := T) (E := E) config needed (left - 1)
    cases left with
    | zero => exact Nat.add_lt_add_left (Nat.lt_succ_of_le (PoolCall.stepsLeft_fill config needed)) _
    | succ left =>
        show _ < s.available.length + (3 * needed + (left + 1) + 1)
        rw [Nat.add_sub_cancel] at hsweep ⊢
        omega
  · cases h
    simp only [PoolCall.stepsLeft]
    omega
  · rename_i needed _ _
    cases h
    have hfill := PoolCall.stepsLeft_fill (T := T) (E := E) config (needed - 1)
    show _ < s.available.length + (3 * (needed - 1) + 3)
    omega
  · rename_i needed _
    cases h
    have hfill := PoolCall.stepsLeft_fill (T := T) (E := E) config needed
    show _ < s.available.length + (3 * needed + 2)
    rw [List.length_append, List.length_singleton]
    omega
  iterate 3 exact he.elim
  -- a call of `shutdown`
  · cases h
    have hdrain := PoolCall.stepsLeft_drain (T := T) (E := E) config s.available.length
    show 0 + _ < s.available.length + 2
    omega
  · rename_i left
    cases h
    have hdrain := PoolCall.stepsLeft_drain (T := T) (E := E) config (left - 1)
    cases left with
    | zero => simp [PoolCall.drain, PoolCall.stepsLeft]
    | succ left =>
        show _ < s.available.length + (left + 1 + 1)
        rw [Nat.add_sub_cancel] at hdrain ⊢
        omega
  iterate 2 exact he.elim
  cases h

/-! ## Permits -/

variable {p : Pool (ConnectionPool T) (PoolCall T E)}

/-- Every permit is free or with one call. -/
theorem permits_held {es : List (Event PoolCallKind (PoolEvent T E))}
    (hr : run (poolCalls config).step (ConnectionPool.fresh config) es = some p) :
    p.shared.permits + p.tasks.countP PoolCall.hasPermit = config.maxSize := by
  rw [← Pool.total_eq_countP]
  refine run_invariant (I := fun p : Pool (ConnectionPool T) (PoolCall T E) =>
    p.shared.permits + p.total (fun c => c.hasPermit.toNat) = config.maxSize) ?_ rfl hr
  intro p e p' hp hs
  rw [← hp]
  refine Program.conserves (f := ConnectionPool.permits) ?_ (fun k => by cases k <;> rfl) hs
  intro s c e s' c' ha
  rw [← PoolCall.hasPermit_toNat, ← PoolCall.hasPermit_toNat]
  exact (callStep_step ha).permits

/-- A call that cannot go on is over, or there is no permit for it. -/
theorem ended_of_quiet [Nonempty (Except E T)] (hquiet : ∀ e : PoolEvent T E, e.goesOn → callStep config s c e = none) :
    c.ended = true ∨ (c = .acquiring ∧ s.permits = 0) := by
  cases c with
  | acquiring =>
      have hnone := hquiet .permit trivial
      simp only [callStep, ite_eq_left_iff, reduceCtorEq, imp_false, not_not] at hnone
      exact .inr ⟨rfl, hnone⟩
  | permitted | pruning | shutting => cases hquiet (.lock fun _ => (0, 0)) trivial
  | closing _ _ | sweeping _ _ | draining _ => cases hquiet .closed trivial
  | validating _ => cases hquiet (.validated true) trivial
  | creating | filling _ =>
      obtain ⟨result⟩ := ‹Nonempty (Except E T)›
      cases result with
      | error err => cases hquiet (.create (.error err) 0) trivial
      | ok conn => cases hquiet (.create (.ok conn) 0) trivial
  | created _ => cases hquiet .count trivial
  | held _ | filled _ _ => cases hquiet (.push 0) trivial
  | returned => cases hquiet .release trivial
  | released | failed _ | dropped | pruned | shut => exact .inl rfl

theorem hasPermit_of_ended (h : c.ended = true) : c.hasPermit = false := by
  cases c <;> first | rfl | cases h

end ConnectionPool

end NetworkSystem
