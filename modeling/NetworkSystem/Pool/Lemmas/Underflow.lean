import NetworkSystem.Pool.Lemmas.Accounts

/-!
# The count is never lowered below zero

The subtractions of `remove_expired` and of `shutdown` are those of `usize`. The walks below fail where one of
them would go below zero, and otherwise they do what those of the pool do.
-/

namespace NetworkSystem

open TaskPool Steps

variable {T E : Type}

namespace ConnectionPool

/-- `remove_expired` from the collected places on. -/
def removeAllChecked (s : ConnectionPool T) : List Nat → Option (ConnectionPool T × List (Connection T))
  | [] => some (s, [])
  | idx :: rest =>
      match s.available[idx]? with
      | some pooled =>
          if s.totalConnections = 0 then none
          else
            ({ s with available := s.available.eraseIdx idx
                      totalConnections := s.totalConnections - 1 }.removeAllChecked rest).map
              (Prod.map id (pooled.connection :: ·))
      | none => s.removeAllChecked rest

def removeExpiredChecked (config : PoolConfig) (s : ConnectionPool T) (clock : SweepClock) :
    Option (ConnectionPool T × List (Connection T)) :=
  s.removeAllChecked (s.toRemove config clock).reverse

/-- The count after the loop of `shutdown`, which lowers it for each connection that it pops. -/
def popAllChecked : List (PooledConnection T) → Nat → Option Nat
  | [], total => some total
  | _ :: available, total => if total = 0 then none else popAllChecked available (total - 1)

def takeAllChecked (s : ConnectionPool T) : Option (ConnectionPool T × PoolCall T E) :=
  (popAllChecked s.available s.totalConnections).map fun total =>
    ({ s with available := [], totalConnections := total }, .drain s.available.length)

variable {config : PoolConfig} {s : ConnectionPool T} {clock : SweepClock}

theorem removeAllChecked_eq (places : List Nat) : s.removeAllChecked places =
    if (s.removeAll places).2.length ≤ s.totalConnections then some (s.removeAll places) else none := by
  induction places generalizing s with
  | nil => rfl
  | cons idx rest ih =>
      rw [removeAllChecked, removeAll]
      cases s.available[idx]? with
      | none => exact ih
      | some pooled =>
          dsimp only
          rw [ih, Prod.map_snd, List.length_cons]
          generalize removeAll _ rest = r
          by_cases hzero : s.totalConnections = 0
          · rw [if_pos hzero, if_neg (by omega)]
          · rw [if_neg hzero]
            dsimp only
            by_cases hle : r.2.length ≤ s.totalConnections - 1
            · rw [if_pos hle, if_pos (by omega), Option.map_some]
            · rw [if_neg hle, if_neg (by omega), Option.map_none]

theorem popAllChecked_eq (available : List (PooledConnection T)) (total : Nat) :
    popAllChecked available total =
      if available.length ≤ total then some (total - available.length) else none := by
  induction available generalizing total with
  | nil => rfl
  | cons pooled available ih =>
      rw [popAllChecked, ih, List.length_cons]
      by_cases hzero : total = 0
      · rw [if_pos hzero, if_neg (by omega)]
      · rw [if_neg hzero]
        by_cases hle : available.length ≤ total - 1
        · rw [if_pos hle, if_pos (by omega), Nat.sub_sub, Nat.add_comm 1]
        · rw [if_neg hle, if_neg (by omega)]

theorem removeExpiredChecked_eq : s.removeExpiredChecked config clock =
    if (s.expired config clock).length ≤ s.totalConnections then some (s.removeExpired config clock)
    else none := by
  rw [removeExpiredChecked, removeAllChecked_eq, ← removeExpired, removeExpired_eq, List.length_reverse]

/-- The walk leaves a count exactly when the connections it returns are counted. -/
theorem removeExpiredChecked_iff {s' : ConnectionPool T} {closing : List (Connection T)} :
    s.removeExpiredChecked config clock = some (s', closing) ↔
      closing = (s.expired config clock).reverse ∧ s'.available = s.unexpired config clock ∧
        s'.totalConnections + closing.length = s.totalConnections ∧ s'.permits = s.permits := by
  rw [removeExpiredChecked_eq, removeExpired_eq]
  constructor
  · intro h
    split at h
    · rename_i hle
      cases h
      refine ⟨rfl, rfl, ?_, rfl⟩
      rw [List.length_reverse]
      exact Nat.sub_add_cancel hle
    · cases h
  · rintro ⟨rfl, hqueue, hcount, hpermits⟩
    rw [List.length_reverse] at hcount
    rw [if_pos (by omega), ← hcount, ← hqueue, ← hpermits, Nat.add_sub_cancel]

/-- No subtraction of `remove_expired`, at whatever time, and of `shutdown` would go below zero. -/
structure NeverUnderflows (config : PoolConfig) (s : ConnectionPool T) : Prop where
  sweep : ∀ clock, s.removeExpiredChecked config clock = some (s.removeExpired config clock)
  shutdown : ∀ E : Type, (s.takeAllChecked : Option (ConnectionPool T × PoolCall T E)) = some s.takeAll

theorem neverUnderflows_of_le (h : s.available.length ≤ s.totalConnections) : s.NeverUnderflows config where
  sweep := by
    intro clock
    have hsplit := s.unexpired_length_add config clock
    rw [removeExpiredChecked_eq, if_pos (by omega), removeExpired_eq]
  shutdown := by
    intro E
    rw [takeAllChecked, popAllChecked_eq, if_pos h]
    rfl

end ConnectionPool

theorem neverUnderflows_of_owned {config : PoolConfig} {p : Pool (ConnectionPool T) (PoolCall T E)}
    (h : ownedConnections p ≤ p.shared.totalConnections) : p.shared.NeverUnderflows config :=
  ConnectionPool.neverUnderflows_of_le (Nat.le_trans (Nat.le_add_right _ _) h)

end NetworkSystem
