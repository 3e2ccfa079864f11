import NetworkSystem.Pool.Lemmas.Step

/-!
# The count of connections

`total_connections` is lowered where a connection is taken out of the queue to be closed, and nowhere else:
a connection that a call of `acquire` has taken and gives up stays in the count.
-/

namespace NetworkSystem

open TaskPool Steps

variable {T E : Type} {config : PoolConfig}

/-- The connections that should be counted: those in the queue and those that the calls have in hand. -/
def ownedConnections (p : Pool (ConnectionPool T) (PoolCall T E)) : Nat :=
  p.shared.available.length + p.total PoolCall.inHand

/-- The event does not cost its call a connection that is counted. -/
def KeepsConnections (p : Pool (ConnectionPool T) (PoolCall T E)) :
    Event PoolCallKind (PoolEvent T E) → Prop
  | .spawn _ => True
  | .act i e => ∀ c ∈ p.tasks[i]?, e.loses = true → c.inHand = 0

instance (p : Pool (ConnectionPool T) (PoolCall T E)) (ev : Event PoolCallKind (PoolEvent T E)) :
    Decidable (KeepsConnections p ev) :=
  match ev with
  | .spawn _ => isTrue trivial
  | .act _ _ => inferInstanceAs (Decidable (∀ _ ∈ _, _ → _))

theorem PoolStep.books {s s' : ConnectionPool T} {c c' : PoolCall T E} {e : PoolEvent T E}
    (h : PoolStep config s c e s' c') (hle : s.available.length ≤ s.totalConnections) :
    s'.totalConnections + (s.available.length + c.inHand) =
      s.totalConnections + (s'.available.length + c'.inHand) + (if e.loses = true then c.inHand else 0) := by
  have hlost : c.inHand = 0 → (if e.loses = true then c.inHand else 0) = 0 := by
    intro h₀
    rw [h₀, ite_self]
  cases h with
  | idle hc hc' =>
      rw [hlost hc.2.2.1, hc.2.2.1, hc'.2.2.1]
      omega
  | keep he _ _ _ _ _ _ hi => rw [if_neg (by simp [he]), hi, Nat.add_zero]
  | permit | release | prepare =>
      rw [hlost rfl]
      exact (Nat.add_zero _).symm
  | @take clock pooled rest hu =>
      have hsplit := s.unexpired_length_add config clock
      rw [hu, List.length_cons] at hsplit
      rw [hlost rfl, PoolCall.inHand_close]
      show s.totalConnections - (s.expired config clock).length + (s.available.length + 0) =
        s.totalConnections + (rest.length + 1) + 0
      omega
  | @miss clock hu =>
      have hsplit := s.unexpired_length_add config clock
      rw [hu, List.length_nil] at hsplit
      rw [hlost rfl, PoolCall.inHand_close]
      show s.totalConnections - (s.expired config clock).length + (s.available.length + 0) =
        s.totalConnections + (0 + 0) + 0
      omega
  | invalid =>
      show s.totalConnections + (s.available.length + 1) = s.totalConnections + (s.available.length + 0) + 1
      omega
  | count =>
      rw [hlost rfl]
      show s.totalConnections + 1 + (s.available.length + 0) =
        s.totalConnections + (s.available.length + 1) + 0
      omega
  | fail hc hu hp hc' he =>
      rw [hc'.2.2.1]
      show s.totalConnections + (s.available.length + c.inHand) = s.totalConnections + (s.available.length + 0) +
        (if e.loses = true then c.inHand else 0)
      rcases he with he | hi
      · rw [if_pos he]
        omega
      · rw [hlost hi, hi]
        omega
  | putBack =>
      rw [List.length_append]
      show s.totalConnections + (s.available.length + 1) = s.totalConnections + (s.available.length + 1 + 0) + 0
      omega
  | @sizeUp clock _ hc' =>
      have hsplit := s.unexpired_length_add config clock
      rw [hlost rfl, hc'.2.2.1]
      show s.totalConnections - (s.expired config clock).length + (s.available.length + 0) =
        s.totalConnections + ((s.unexpired config clock).length + 0) + 0
      omega
  | stock hc' =>
      rw [hlost rfl, hc'.2.2.1, List.length_append]
      show s.totalConnections + 1 + (s.available.length + 0) =
        s.totalConnections + (s.available.length + 1 + 0) + 0
      omega
  | takeAll hc' =>
      rw [hlost rfl, hc'.2.2.1]
      show s.totalConnections - s.available.length + (s.available.length + 0) =
        s.totalConnections + (0 + 0) + 0
      omega

/-- A step gains on the connections that should be counted exactly when it loses one. -/
theorem pool_books_step {p p' : Pool (ConnectionPool T) (PoolCall T E)}
    {ev : Event PoolCallKind (PoolEvent T E)} (hle : ownedConnections p ≤ p.shared.totalConnections)
    (hs : (poolCalls config).step p ev = some p') :
    ∃ gain, p'.shared.totalConnections + ownedConnections p =
      p.shared.totalConnections + ownedConnections p' + gain ∧ (gain = 0 ↔ KeepsConnections p ev) := by
  cases ev with
  | spawn k =>
      rw [Program.step_spawn] at hs
      cases hs
      refine ⟨0, ?_, iff_of_true rfl trivial⟩
      have hstart : ((poolCalls config).start k : PoolCall T E).inHand = 0 := by cases k <;> rfl
      rw [ownedConnections, ownedConnections, Pool.total, Pool.total, List.map_append, List.sum_append,
        List.map_singleton, List.sum_singleton, hstart, Nat.add_zero, Nat.add_zero]
  | act i e =>
      obtain ⟨c, s', c', hi, ha, rfl⟩ := Program.step_act.mp hs
      have hbooks := (ConnectionPool.callStep_step ha).books (Nat.le_trans (Nat.le_add_right _ _) hle)
      have hset := sum_map_set PoolCall.inHand c' hi
      refine ⟨if e.loses = true then c.inHand else 0, ?_, ?_⟩
      · rw [ownedConnections, ownedConnections, Pool.total, Pool.total]
        dsimp only
        omega
      · have hkeeps : KeepsConnections p (.act i e) ↔ (e.loses = true → c.inHand = 0) := by
          rw [KeepsConnections, hi]
          simp
        rw [hkeeps]
        cases e.loses <;> simp

theorem owned_le_fresh :
    ownedConnections (ConnectionPool.fresh config : Pool (ConnectionPool T) (PoolCall T E)) ≤
      (ConnectionPool.fresh config : Pool (ConnectionPool T) (PoolCall T E)).shared.totalConnections :=
  Nat.le_refl 0

/-- All connections that should be counted are. -/
theorem owned_le_step {p p' : Pool (ConnectionPool T) (PoolCall T E)}
    {ev : Event PoolCallKind (PoolEvent T E)} (hle : ownedConnections p ≤ p.shared.totalConnections)
    (hs : (poolCalls config).step p ev = some p') : ownedConnections p' ≤ p'.shared.totalConnections := by
  obtain ⟨gain, hgain, -⟩ := pool_books_step hle hs
  omega

theorem pool_books {es : List (Event PoolCallKind (PoolEvent T E))}
    {p : Pool (ConnectionPool T) (PoolCall T E)}
    (hr : run (poolCalls config).step (ConnectionPool.fresh config) es = some p) :
    p.shared.totalConnections = ownedConnections p ↔
      Along (poolCalls config).step KeepsConnections (ConnectionPool.fresh config) es := by
  obtain ⟨gain, hgain, hC⟩ := run_balance (fun _ _ _ hle hs => owned_le_step hle hs)
    (fun _ _ _ hle hs => pool_books_step hle hs) owned_le_fresh hr
  have hzero : p.shared.totalConnections + 0 = 0 + ownedConnections p + gain := hgain
  rw [← hC]
  omega

/-! ## States with nothing under way -/

namespace PoolCall

/-- A call of `acquire` or of `prune_idle` that has not returned. -/
def underway : PoolCall T E → Bool
  | .acquiring | .permitted | .closing _ _ | .validating _ | .creating | .created _ => true
  | .pruning | .sweeping _ _ | .filling _ | .filled _ _ => true
  | _ => false

def isHeld : PoolCall T E → Bool
  | .held _ => true
  | _ => false

theorem inHand_of_not_underway {c : PoolCall T E} (h : c.underway = false) :
    c.inHand = c.isHeld.toNat := by
  cases c with
  | closing | validating => cases h
  | _ => rfl

theorem sum_inHand {calls : List (PoolCall T E)} (h : ∀ c ∈ calls, c.underway = false) :
    (calls.map inHand).sum = calls.countP isHeld := by
  induction calls with
  | nil => rfl
  | cons c calls ih =>
      obtain ⟨hc, hcalls⟩ := List.forall_mem_cons.mp h
      rw [List.map_cons, List.sum_cons, ih hcalls, inHand_of_not_underway hc, List.countP_cons]
      cases c.isHeld with
      | true => exact Nat.add_comm _ _
      | false => exact Nat.zero_add _

end PoolCall

end NetworkSystem
