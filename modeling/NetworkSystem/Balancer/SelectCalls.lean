import NetworkSystem.Balancer.Selection
import NetworkSystem.Lib.TaskPool

/-!
# Calls on one load balancer

Any number of tasks call the functions of one `LoadBalancer` of `src/pooling/load_balancer.rs`. `select` holds the
lock of the list for reading, as any number of calls may at once, and reads and writes the atomics of the entries one
after another: the flags of all of them, the counters under `Strategy::LeastConnections` and the index under the
rotating strategies, and the counter of the entry it has chosen. Guards are dropped, requests recorded, flags set and
checks brought in between, each in one step; backends are added and removed while no call reads the list.
-/

namespace NetworkSystem

open TaskPool Steps

inductive BalancerCall where
  /-- `select`, before the lock of the list. -/
  | selecting (roll : Nat)
  /-- The flags of `rest` are still to be read. -/
  | filtering (roll : Nat) (rest healthy : List Nat)
  /-- `min_by_key`: the counters of `rest` are still to be read; the least one so far and whose it is. -/
  | counting (rest : List Nat) (least : Option (Nat × Nat))
  /-- A strategy has chosen an entry, and its counter is next. -/
  | selected (guard : BackendGuard)
  | returned (result : Option BackendGuard)
  | panicked (p : Panic)
  /-- One of the other functions, the drop of a guard or the end of a check. -/
  | calling (e : BalancerEvent)
  | ended
  deriving Repr, DecidableEq

/-- `readers` is the number of calls that hold the lock of the list. -/
structure SharedBalancer where
  balancer : LoadBalancer
  readers : Nat := 0
  deriving Repr, DecidableEq

namespace LoadBalancer

def listedAt (s : LoadBalancer) (positions : List Nat) : List Listed :=
  positions.filterMap fun r => s.entries[r]?.map (r, ·)

def connections (s : LoadBalancer) (r : Nat) : Nat := (s.entries[r]?.map (·.activeConnections)).getD 0

/-- The list has entry `r`, and its flag is set. -/
def InRotation (s : LoadBalancer) (r : Nat) : Prop := r ∈ s.backends ∧ s.isHealthy r = true

instance (s : LoadBalancer) (r : Nat) : Decidable (s.InRotation r) := inferInstanceAs (Decidable (_ ∧ _))

end LoadBalancer

/-- Whether the function takes the lock of the list for writing. -/
def BalancerEvent.writesList : BalancerEvent → Bool
  | .addBackend _ _ | .removeBackend _ => true
  | _ => false

namespace BalancerCall

def start : BalancerEvent → BalancerCall
  | .select roll => .selecting roll
  | e => .calling e

/-- The least counter after another one was read; the first of several stays. -/
def least (r count : Nat) : Option (Nat × Nat) → Nat × Nat
  | none => (r, count)
  | some (r', count') => if count < count' then (r, count) else (r', count')

end BalancerCall

namespace SharedBalancer

/-- The call returns, and gives up the lock. -/
def release (s : SharedBalancer) (c : BalancerCall) : SharedBalancer × BalancerCall :=
  ({ s with readers := s.readers - 1 }, c)

def lock (s : SharedBalancer) (roll : Nat) : SharedBalancer × BalancerCall :=
  if s.balancer.backends.isEmpty then (s, .returned none)
  else ({ s with readers := s.readers + 1 }, .filtering roll s.balancer.backends [])

/-- What a rotating strategy or a roll has come to. -/
def conclude (s : SharedBalancer) : Except Panic (Option Listed) → SharedBalancer × BalancerCall
  | .error p => s.release (.panicked p)
  | .ok none => s.release (.returned none)
  | .ok (some b) => (s, .selected ⟨b.2.backend, b.1⟩)

/-- All flags are read. -/
def choose (s : SharedBalancer) (roll : Nat) (healthy : List Nat) : SharedBalancer × BalancerCall :=
  if healthy.isEmpty then s.release (.returned none)
  else if s.balancer.config.strategy = .leastConnections then (s, .counting healthy none)
  else
    let (result, balancer) := s.balancer.selectBy roll (s.balancer.listedAt healthy)
    ({ s with balancer := balancer } : SharedBalancer).conclude result

/-- `active_connections.fetch_add(1)`, and the guard is returned. -/
def take (s : SharedBalancer) (r : Nat) : SharedBalancer × BalancerCall :=
  match s.balancer.entries[r]? with
  | none => s.release (.returned none)
  | some b =>
      ({ s with balancer := (s.balancer.guard (r, b)).2 } : SharedBalancer).release
        (.returned (some (s.balancer.guard (r, b)).1))

/-- The next step of a call. -/
def callStep (s : SharedBalancer) (c : BalancerCall) (_ : Unit) : Option (SharedBalancer × BalancerCall) :=
  match c with
  | .selecting roll => some (s.lock roll)
  | .filtering roll (r :: rest) healthy =>
      some (s, .filtering roll rest (if s.balancer.isHealthy r then healthy ++ [r] else healthy))
  | .filtering roll [] healthy => some (s.choose roll healthy)
  | .counting (r :: rest) least =>
      some (s, .counting rest (some (BalancerCall.least r (s.balancer.connections r) least)))
  | .counting [] (some (r, _)) => some (s.take r)
  | .counting [] none => some (s.release (.returned none))
  | .selected g => some (s.take g.state)
  | .calling e =>
      if LoadBalancer.isSelect e || (e.writesList && s.readers != 0) then none
      else (s.balancer.step e).map fun balancer => ({ s with balancer := balancer }, .ended)
  | .returned _ | .panicked _ | .ended => none

end SharedBalancer

/-- Calls on one balancer, by any number of tasks. -/
def balancerCalls : Program SharedBalancer BalancerCall BalancerEvent Unit where
  start := BalancerCall.start
  act := SharedBalancer.callStep

abbrev BalancerPool := Pool SharedBalancer BalancerCall

namespace BalancerPool

def fresh (config : LoadBalancerConfig) (overflowChecks : Bool) (now : Nat) (backends : List Backend) :
    BalancerPool :=
  ⟨⟨.new config overflowChecks now backends, 0⟩, []⟩

/-- What a strategy other than `Strategy::LeastConnections` picks in the event, for a call that has read all flags. -/
def picked (p : BalancerPool) : Event BalancerEvent Unit → Option (Except Panic (Option BackendGuard))
  | .act i _ =>
      match p.tasks[i]? with
      | some (.filtering roll [] (r :: healthy)) =>
          if p.shared.balancer.config.strategy = .leastConnections then none
          else
            some ((p.shared.balancer.selectBy roll (p.shared.balancer.listedAt (r :: healthy))).1.map
              (Option.map fun b => ⟨b.2.backend, b.1⟩))
      | _ => none
  | .spawn _ => none

/-- What the calls of the run pick, in the order in which they do. -/
def picks : BalancerPool → List (Event BalancerEvent Unit) → List (Except Panic (Option BackendGuard)) :=
  outputs balancerCalls.step picked

end BalancerPool

end NetworkSystem
