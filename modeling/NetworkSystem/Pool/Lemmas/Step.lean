import NetworkSystem.Pool.Lemmas.Sweep

/-!
# The steps of the calls on a pool

`PoolStep` sorts the steps of all calls by what they do to the queue, to the count and to the permits. Each
law of the pool is checked once for each of these effects.
-/

namespace NetworkSystem

open TaskPool

/-! ## What a call accounts for -/

namespace PoolCall

variable {T E : Type}

/-- The call has a permit and is past the lock of `acquire`: it has a connection, or goes to create one. -/
def committed : PoolCall T E → Nat
  | .closing _ _ | .validating _ | .creating | .created _ | .held _ => 1
  | _ => 0

/-- The call has a permit and no connection. -/
def uncommitted : PoolCall T E → Nat
  | .permitted | .returned => 1
  | _ => 0

/-- The call has a connection that is counted and not in the queue. -/
def inHand : PoolCall T E → Nat
  | .closing (some _) _ | .validating _ | .held _ => 1
  | _ => 0

/-- The call has a connection that `prune_idle` has created. -/
def prepared : PoolCall T E → Nat
  | .filled _ _ => 1
  | _ => 0

/-- The call has a connection. One that was found invalid and is being replaced does not count. -/
def alive : PoolCall T E → Nat
  | .closing (some _) _ | .validating _ | .created _ | .held _ | .filled _ _ => 1
  | _ => 0

theorem alive_le (c : PoolCall T E) : c.alive ≤ c.committed + c.prepared := by
  cases c with
  | closing taken => cases taken <;> simp [alive, committed]
  | _ => simp [alive, committed, prepared]

variable {taken : Option (Connection T)} {left needed : Nat}

@[simp] theorem committed_close : (close taken left : PoolCall T E).committed = 1 := by
  cases left <;> cases taken <;> rfl

@[simp] theorem uncommitted_close : (close taken left : PoolCall T E).uncommitted = 0 := by
  cases left <;> cases taken <;> rfl

@[simp] theorem prepared_close : (close taken left : PoolCall T E).prepared = 0 := by
  cases left <;> cases taken <;> rfl

@[simp] theorem inHand_close :
    (close taken left : PoolCall T E).inHand = taken.isSome.toNat := by
  cases left <;> cases taken <;> rfl

@[simp] theorem inHand_closing :
    (closing taken left : PoolCall T E).inHand = taken.isSome.toNat := by
  cases taken <;> rfl

/-- The calls that have neither a permit nor a connection. -/
def Idle (c : PoolCall T E) : Prop :=
  c.committed = 0 ∧ c.uncommitted = 0 ∧ c.inHand = 0 ∧ c.prepared = 0

theorem idle_fill : (fill needed : PoolCall T E).Idle := by
  cases needed <;> exact ⟨rfl, rfl, rfl, rfl⟩

theorem idle_sweep : (sweep needed left : PoolCall T E).Idle := by
  cases left with
  | zero => exact idle_fill
  | succ left => exact ⟨rfl, rfl, rfl, rfl⟩

theorem idle_drain : (drain left : PoolCall T E).Idle := by
  cases left <;> exact ⟨rfl, rfl, rfl, rfl⟩

end PoolCall

/-- The event can cost the call the connection it has: it is found invalid, or the future is dropped. -/
def PoolEvent.loses {T E : Type} : PoolEvent T E → Bool
  | .validated false | .drop => true
  | _ => false

/-! ## Effects -/

/-- The pool after the expired connections are out, with the rest of the queue as given. -/
def ConnectionPool.swept {T : Type} (config : PoolConfig) (s : ConnectionPool T) (clock : SweepClock)
    (available : List (PooledConnection T)) : ConnectionPool T :=
  { s with available
           totalConnections := s.totalConnections - (s.expired config clock).length }

inductive PoolStep {T E : Type} (config : PoolConfig) (s : ConnectionPool T) :
    PoolCall T E → PoolEvent T E → ConnectionPool T → PoolCall T E → Prop
  | idle {c c' : PoolCall T E} {e : PoolEvent T E} (hc : c.Idle) (hc' : c'.Idle) : PoolStep config s c e s c'
  | keep {c c' : PoolCall T E} {e : PoolEvent T E} (he : e.loses = false) (hc : c.committed = 1)
      (hc' : c'.committed = 1) (hu : c.uncommitted = 0) (hu' : c'.uncommitted = 0) (hp : c.prepared = 0)
      (hp' : c'.prepared = 0) (hi : c'.inHand = c.inHand) : PoolStep config s c e s c'
  | permit {e : PoolEvent T E} (h : s.permits ≠ 0) :
      PoolStep config s .acquiring e { s with permits := s.permits - 1 } .permitted
  | take {clock : SweepClock} {pooled : PooledConnection T} {rest : List (PooledConnection T)}
      (h : s.unexpired config clock = pooled :: rest) :
      PoolStep config s .permitted (.lock clock) (s.swept config clock rest)
        (.close (some pooled.connection) (s.expired config clock).length)
  | miss {clock : SweepClock} (h : s.unexpired config clock = []) :
      PoolStep config s .permitted (.lock clock) (s.swept config clock [])
        (.close none (s.expired config clock).length)
  | invalid {connection : Connection T} :
      PoolStep config s (.validating connection) (.validated false) s .creating
  | count {connection : Connection T} {e : PoolEvent T E} :
      PoolStep config s (.created connection) e
        { s with totalConnections := s.totalConnections + 1 } (.held connection)
  | fail {c c' : PoolCall T E} {e : PoolEvent T E} (hc : c.committed = 1) (hu : c.uncommitted = 0)
      (hp : c.prepared = 0) (hc' : c'.Idle) (he : e.loses = true ∨ c.inHand = 0) :
      PoolStep config s c e { s with permits := s.permits + 1 } c'
  | putBack {connection : Connection T} {now : Nat} :
      PoolStep config s (.held connection) (.push now)
        { s with available := s.available ++ [.new connection now] } .returned
  | release {e : PoolEvent T E} :
      PoolStep config s .returned e { s with permits := s.permits + 1 } .released
  | sizeUp {clock : SweepClock} {c' : PoolCall T E} (hc' : c'.Idle) :
      PoolStep config s .pruning (.lock clock) (s.swept config clock (s.unexpired config clock)) c'
  | prepare {connection : Connection T} {needed left : Nat} {value : T} {now : Nat} :
      PoolStep config s (.filling needed) (.create (.ok value) now) s (.filled connection left)
  | stock {connection : Connection T} {needed now : Nat} {c' : PoolCall T E} (hc' : c'.Idle) :
      PoolStep config s (.filled connection needed) (.push now)
        { s with available := s.available ++ [.new connection now]
                 totalConnections := s.totalConnections + 1 } c'
  | takeAll {e : PoolEvent T E} {c' : PoolCall T E} (hc' : c'.Idle) :
      PoolStep config s .shutting e
        { s with available := [], totalConnections := s.totalConnections - s.available.length } c'

variable {T E : Type} {config : PoolConfig} {s s' : ConnectionPool T} {c c' : PoolCall T E}
  {e : PoolEvent T E}

namespace ConnectionPool

theorem takeAvailable_step {clock : SweepClock} (h : s.takeAvailable config clock = (s', c')) :
    PoolStep config s .permitted (.lock clock) s' c' := by
  rw [takeAvailable, removeExpired_eq] at h
  dsimp only at h
  rw [List.length_reverse] at h
  split at h
  · cases h
    exact .take ‹_›
  · rename_i hnone
    have hs : s.swept config clock [] =
        { s with available := s.unexpired config clock
                 totalConnections := s.totalConnections - (s.expired config clock).length } := by
      rw [hnone]
      rfl
    cases h
    rw [← hs]
    exact .miss hnone

theorem sizeUp_step {clock : SweepClock} (h : s.sizeUp config clock = (s', c')) :
    PoolStep config s .pruning (.lock clock) s' c' := by
  rw [sizeUp, removeExpired_eq] at h
  cases h
  exact .sizeUp PoolCall.idle_sweep

theorem callStep_step (h : callStep config s c e = some (s', c')) : PoolStep config s c e s' c' := by
  unfold callStep at h
  split at h
  -- a call of `acquire`
  · split at h
    · cases h
    · cases h; exact .permit ‹_›
  · cases h; exact .idle ⟨rfl, rfl, rfl, rfl⟩ ⟨rfl, rfl, rfl, rfl⟩
  · cases h; exact .idle ⟨rfl, rfl, rfl, rfl⟩ ⟨rfl, rfl, rfl, rfl⟩
  · exact takeAvailable_step (Option.some.inj h)
  · cases h
    exact .keep rfl rfl PoolCall.committed_close rfl PoolCall.uncommitted_close rfl
      PoolCall.prepared_close (PoolCall.inHand_close.trans PoolCall.inHand_closing.symm)
  · cases h; exact .keep rfl rfl rfl rfl rfl rfl rfl rfl
  · cases h; exact .invalid
  · cases h; exact .keep rfl rfl rfl rfl rfl rfl rfl rfl
  · cases h; exact .fail rfl rfl rfl ⟨rfl, rfl, rfl, rfl⟩ (Or.inr rfl)
  · cases h; exact .count
  · cases h; exact .fail rfl rfl rfl ⟨rfl, rfl, rfl, rfl⟩ (Or.inl rfl)
  · cases h; exact .fail rfl rfl rfl ⟨rfl, rfl, rfl, rfl⟩ (Or.inl rfl)
  · cases h; exact .fail rfl rfl rfl ⟨rfl, rfl, rfl, rfl⟩ (Or.inl rfl)
  · cases h; exact .putBack
  · cases h; exact .release
  -- a call of `prune_idle`
  · exact sizeUp_step (Option.some.inj h)
  · cases h; exact .idle ⟨rfl, rfl, rfl, rfl⟩ PoolCall.idle_sweep
  · cases h; exact .prepare
  · cases h; exact .idle ⟨rfl, rfl, rfl, rfl⟩ PoolCall.idle_fill
  · cases h; exact .stock PoolCall.idle_fill
  iterate 3 cases h; exact .idle ⟨rfl, rfl, rfl, rfl⟩ ⟨rfl, rfl, rfl, rfl⟩
  -- a call of `shutdown`
  · cases h; exact .takeAll PoolCall.idle_drain
  · cases h; exact .idle ⟨rfl, rfl, rfl, rfl⟩ PoolCall.idle_drain
  iterate 2 cases h; exact .idle ⟨rfl, rfl, rfl, rfl⟩ ⟨rfl, rfl, rfl, rfl⟩
  cases h

end ConnectionPool

end NetworkSystem
