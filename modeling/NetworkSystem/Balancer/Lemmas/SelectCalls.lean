import NetworkSystem.Balancer.Lemmas.Guards
import NetworkSystem.Balancer.SelectCalls

/-!
# What a step of a call does

The lock of the list is held by as many calls as are counted, and the counters of the entries are the numbers of
their live guards, in every interleaving.
-/

namespace NetworkSystem

open TaskPool Steps Handles LoadBalancer

namespace BalancerCall

/-- The call holds the lock of the list. -/
def reading : BalancerCall → Bool
  | .filtering _ _ _ | .counting _ _ | .selected _ => true
  | _ => false

/-- The entry whose counter the call is about to raise. -/
def chosen : BalancerCall → Option Nat
  | .counting [] least => least.map Prod.fst
  | .selected g => some g.state
  | _ => none

end BalancerCall

variable {s s' : SharedBalancer} {c c' : BalancerCall} {p p' : BalancerPool} {r : Nat} {b : BackendState}

/-! ## One step -/

/-- Everything that a step of a call can do. -/
inductive BalancerStep (s : SharedBalancer) : BalancerCall → SharedBalancer → BalancerCall → Prop
  | passes {roll : Nat} : BalancerStep s (.selecting roll) s (.returned none)
  | locks {roll : Nat} : BalancerStep s (.selecting roll) { s with readers := s.readers + 1 }
      (.filtering roll s.balancer.backends [])
  | filters {roll r : Nat} {rest healthy : List Nat} : BalancerStep s (.filtering roll (r :: rest) healthy) s
      (.filtering roll rest (if s.balancer.isHealthy r then healthy ++ [r] else healthy))
  | counts {roll : Nat} {healthy : List Nat} (hstrategy : s.balancer.config.strategy = .leastConnections) :
      BalancerStep s (.filtering roll [] healthy) s (.counting healthy none)
  | picks {roll r : Nat} {healthy : List Nat} {result : Except Panic (Option Listed)} {index : UInt64}
      (hstrategy : s.balancer.config.strategy ≠ .leastConnections)
      (hselect : s.balancer.selectBy roll (s.balancer.listedAt (r :: healthy)) =
        (result, s.balancer.atIndex index)) :
      BalancerStep s (.filtering roll [] (r :: healthy))
        (({ s with balancer := s.balancer.atIndex index } : SharedBalancer).conclude result).1
        (({ s with balancer := s.balancer.atIndex index } : SharedBalancer).conclude result).2
  | reads {r : Nat} {rest : List Nat} {least : Option (Nat × Nat)} : BalancerStep s (.counting (r :: rest) least) s
      (.counting rest (some (BalancerCall.least r (s.balancer.connections r) least)))
  | takes {c : BalancerCall} {r : Nat} {b : BackendState} (hc : c.chosen = some r)
      (hb : s.balancer.entries[r]? = some b) :
      BalancerStep s c ⟨(s.balancer.guard (r, b)).2, s.readers - 1⟩ (.returned (some ⟨b.backend, r⟩))
  | leaves {c : BalancerCall} (hc : c.reading = true) (hnone : ∀ roll r healthy, c ≠ .filtering roll [] (r :: healthy))
      (hmissing : ∀ r, c.chosen = some r → s.balancer.entries[r]? = none) :
      BalancerStep s c { s with readers := s.readers - 1 } (.returned none)
  | calls {e : BalancerEvent} {balancer : LoadBalancer} (he : isSelect e = false)
      (hfree : e.writesList = true → s.readers = 0) (hs : s.balancer.step e = some balancer) :
      BalancerStep s (.calling e) { s with balancer := balancer } .ended

theorem choose_balancerStep (s : SharedBalancer) (roll : Nat) (healthy : List Nat) :
    BalancerStep s (.filtering roll [] healthy) (s.choose roll healthy).1 (s.choose roll healthy).2 := by
  unfold SharedBalancer.choose
  cases healthy with
  | nil => exact .leaves rfl (fun _ _ _ h => by cases h) (fun _ h => by cases h)
  | cons r healthy =>
      rw [if_neg (by simp)]
      split
      · rename_i hstrategy
        exact .counts hstrategy
      · rename_i hstrategy
        obtain ⟨index, hindex⟩ := selectBy_atIndex s.balancer roll (s.balancer.listedAt (r :: healthy))
        have hselect : s.balancer.selectBy roll (s.balancer.listedAt (r :: healthy)) =
            ((s.balancer.selectBy roll (s.balancer.listedAt (r :: healthy))).1, s.balancer.atIndex index) := by
          rw [← hindex]
        have hpicks := BalancerStep.picks hstrategy hselect
        rw [← hindex] at hpicks
        exact hpicks

theorem take_balancerStep (hreading : c.reading = true) (hc : c.chosen = some r) :
    BalancerStep s c (s.take r).1 (s.take r).2 := by
  unfold SharedBalancer.take
  cases hb : s.balancer.entries[r]? with
  | none =>
      refine .leaves hreading (fun roll r healthy h => ?_) fun x hx => ?_
      · rw [h] at hc
        cases hc
      · rw [hc] at hx
        cases hx
        exact hb
  | some b => exact .takes hc hb

theorem balancerStep_cases (h : s.callStep c () = some (s', c')) : BalancerStep s c s' c' := by
  unfold SharedBalancer.callStep at h
  split at h
  · have hlock := Option.some.inj h
    unfold SharedBalancer.lock at hlock
    split at hlock
    · cases hlock
      exact .passes
    · cases hlock
      exact .locks
  · cases h
    exact .filters
  · rename_i roll healthy
    have hchoose := choose_balancerStep s roll healthy
    rwa [Option.some.inj h] at hchoose
  · cases h
    exact .reads
  · rename_i r n
    have htake : BalancerStep s (.counting [] (some (r, n))) _ _ := take_balancerStep rfl rfl
    rwa [Option.some.inj h] at htake
  · cases h
    exact .leaves rfl (fun _ _ _ h => by cases h) (fun _ h => by cases h)
  · rename_i g
    have htake : BalancerStep s (.selected g) _ _ := take_balancerStep rfl rfl
    rwa [Option.some.inj h] at htake
  · split at h
    · cases h
    · rename_i e hfree
      obtain ⟨balancer, hs, hr⟩ := Option.map_eq_some_iff.mp h
      cases hr
      simp only [Bool.or_eq_true, Bool.and_eq_true, bne_iff_ne, ne_eq, not_or, not_and, not_not,
        Bool.not_eq_true] at hfree
      exact .calls hfree.1 hfree.2 hs
  · cases h
  · cases h
  · cases h

/-! ## The configuration -/

/-- What a call has come to leaves the balancer as it is. -/
@[simp] theorem conclude_balancer (s : SharedBalancer) (result : Except Panic (Option Listed)) :
    (s.conclude result).1.balancer = s.balancer := by
  unfold SharedBalancer.conclude SharedBalancer.release
  split <;> rfl

theorem BalancerStep.config (h : BalancerStep s c s' c') : s'.balancer.config = s.balancer.config := by
  cases h with
  | picks _ hselect =>
      rw [conclude_balancer]
      rfl
  | calls _ _ hs => exact (step_cases hs).config
  | _ => rfl

theorem config_calls {e : Event BalancerEvent Unit} (hs : balancerCalls.step p e = some p') :
    p'.shared.balancer.config = p.shared.balancer.config :=
  balancerCalls.shared_invariant (I := fun s => s.balancer.config = p.shared.balancer.config)
    (fun _ _ _ _ _ ha h => (balancerStep_cases ha).config.trans h) hs rfl

/-! ## The lock -/

theorem conclude_readers {result : Except Panic (Option Listed)} (hpos : 0 < s.readers) :
    (s.conclude result).1.readers + 1 = s.readers + (s.conclude result).2.reading.toNat := by
  unfold SharedBalancer.conclude SharedBalancer.release
  split
  · exact Nat.sub_add_cancel hpos
  · exact Nat.sub_add_cancel hpos
  · rfl

theorem BalancerStep.readers (h : BalancerStep s c s' c') (hle : c.reading.toNat ≤ s.readers) :
    s'.readers + c.reading.toNat = s.readers + c'.reading.toNat := by
  have hsub : c.reading = true → s.readers - 1 + c.reading.toNat = s.readers := by
    intro hc
    rw [hc, Bool.toNat_true] at hle ⊢
    exact Nat.sub_add_cancel hle
  cases h with
  | @picks roll r healthy result index hstrategy hselect =>
      exact conclude_readers (s := ⟨s.balancer.atIndex index, s.readers⟩) hle
  | takes hc hb =>
      refine hsub ?_
      cases c <;> first | rfl | cases hc
  | leaves hc _ _ => exact hsub hc
  | _ => rfl

/-- As many calls hold the lock as are counted. -/
def ReadersCounted (p : BalancerPool) : Prop := p.shared.readers = p.total fun c => c.reading.toNat

theorem ReadersCounted.fresh (config : LoadBalancerConfig) (overflowChecks : Bool) (now : Nat)
    (backends : List Backend) : ReadersCounted (BalancerPool.fresh config overflowChecks now backends) := rfl

theorem start_reading (e : BalancerEvent) : (BalancerCall.start e).reading = false := by
  cases e <;> rfl

theorem ReadersCounted.step {e : Event BalancerEvent Unit} (h : ReadersCounted p)
    (hs : balancerCalls.step p e = some p') : ReadersCounted p' := by
  refine balancerCalls.accounts (fun s c _ s' c' hle ha => (balancerStep_cases ha).readers hle) ?_ hs h
  intro k
  exact congrArg Bool.toNat (start_reading k)

theorem ReadersCounted.le (h : ReadersCounted p) (hc : c ∈ p.tasks) : c.reading.toNat ≤ p.shared.readers := by
  rw [h]
  exact le_total_of_mem (fun c => c.reading.toNat) hc

/-- When the lock is free no call reads the list. -/
theorem ReadersCounted.idle (h : ReadersCounted p) (hidle : p.shared.readers = 0) (hc : c ∈ p.tasks) :
    c.reading = false :=
  Bool.toNat_eq_zero.mp (Nat.le_zero.mp (hidle ▸ h.le hc))

/-! ## The counters -/

theorem exact_guard {s : LoadBalancer} (h : s.cells.Exact) (hb : s.entries[r]? = some b) :
    (s.guard (r, b)).2.cells.Exact := by
  obtain ⟨hr, -⟩ := List.getElem?_eq_some_iff.mp hb
  have hacquire := h.acquire (r := r) (by rwa [cells, List.length_map])
  have hcount : (s.entries.modify r .addConnection).map (·.activeConnections) =
      s.cells.counts.modify r (· + 1) := map_modify fun _ => rfl
  rw [← hcount] at hacquire
  simpa only [LoadBalancer.guard, cells, List.map_append, List.map_cons, List.map_nil, Option.map_some] using hacquire

theorem BalancerStep.exact (h : BalancerStep s c s' c') (hs : s.balancer.cells.Exact) : s'.balancer.cells.Exact := by
  cases h with
  | @picks roll r healthy result index hstrategy hselect =>
      rw [conclude_balancer]
      exact hs
  | takes hc hb => exact exact_guard hs hb
  | calls he hfree hstep => exact exact_step hs hstep
  | _ => exact hs

theorem exact_calls {e : Event BalancerEvent Unit} (h : p.shared.balancer.cells.Exact)
    (hs : balancerCalls.step p e = some p') : p'.shared.balancer.cells.Exact :=
  balancerCalls.shared_invariant (fun _ _ _ _ _ ha hexact => (balancerStep_cases ha).exact hexact) hs h

theorem connections_eq {s : LoadBalancer} (h : s.cells.Exact) (r : Nat) : s.connections r = s.liveGuards r := by
  unfold LoadBalancer.connections
  cases hb : s.entries[r]? with
  | some b => exact counted_of_exact h hb
  | none =>
      have hlive : s.cells.live r = 0 := by
        refine List.count_eq_zero.mpr fun hr => ?_
        have hbound := h.bound r hr
        rw [cells, List.length_map] at hbound
        exact absurd hbound (Nat.not_lt.mpr (List.getElem?_eq_none_iff.mp hb))
      rw [live_cells] at hlive
      exact hlive.symm

end NetworkSystem
