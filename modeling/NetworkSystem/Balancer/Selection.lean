import Mathlib.Algebra.GroupWithZero.Nat
import NetworkSystem.Balancer.LoadBalancer

/-!
# What the selections of a run return

The strategies of `src/pooling/load_balancer.rs` over a run: how often each backend is picked, where the
arithmetic of the weights ends, and which backends are out of rotation.
-/

namespace NetworkSystem

open Steps

def BackendGuard.weight (g : BackendGuard) : Nat := g.backend.weight.toNat

namespace LoadBalancer

def isSelect : BalancerEvent → Bool
  | .select _ => true
  | _ => false

def isCheck : BalancerEvent → Bool
  | .check _ _ _ => true
  | _ => false

/-! ## The candidates -/

/-- The guards of the healthy backends, in the order in which the strategies see them. -/
def candidates (s : LoadBalancer) : List BackendGuard := s.healthyBackends.map fun b => ⟨b.2.backend, b.1⟩

/-- The weights that `select_weighted_round_robin` adds up. -/
def healthyWeights (s : LoadBalancer) : List UInt32 := s.healthyBackends.map (·.2.backend.weight)

def totalWeight (candidates : List BackendGuard) : Nat := (candidates.map BackendGuard.weight).sum

/-! ## The picks -/

def selection (s : LoadBalancer) : BalancerEvent → Option (Except Panic (Option BackendGuard))
  | .select roll => some (s.select roll).1
  | _ => none

/-- What the selections of the run return, in order. -/
def picks : LoadBalancer → List BalancerEvent → List (Except Panic (Option BackendGuard)) := outputs step selection

def InTurn (candidates : List BackendGuard) (picks : List (Except Panic (Option BackendGuard))) : Prop :=
  ∀ g ∈ candidates,
    picks.count (.ok (some g)) = picks.length / candidates.length ∨
      picks.count (.ok (some g)) = (picks.length + candidates.length - 1) / candidates.length

def ByWeight (candidates : List BackendGuard) (picks : List (Except Panic (Option BackendGuard))) : Prop :=
  ∀ g ∈ candidates, picks.count (.ok (some g)) = g.weight

/-! ## The arithmetic of the weights -/

/-- The additions of `sum()`: the total so far, and the weight that is added. -/
def additions : UInt32 → List UInt32 → List (UInt32 × UInt32)
  | _, [] => []
  | total, weight :: weights => (total, weight) :: additions (total + weight) weights

/-- The subtractions of the loop of `select_weighted_round_robin`: the target, and the weight that is taken
off. -/
def subtractions : UInt32 → List Listed → List (UInt32 × UInt32)
  | _, [] => []
  | target, b :: backends =>
      if target < b.2.backend.weight then []
      else (target, b.2.backend.weight) :: subtractions (target - b.2.backend.weight) backends

/-- A selection of `select_weighted_round_robin` ends its loop at a backend, and no subtraction on the way
takes more off than is there. -/
def WalksInside (s : LoadBalancer) (e : BalancerEvent) : Prop :=
  isSelect e = true → ∃ totalWeight, sumWeights s.overflowChecks 0 s.healthyWeights = .ok totalWeight ∧
    totalWeight ≠ 0 ∧
      (pickWeighted (s.roundRobinIndex.toUInt32 % totalWeight) s.healthyBackends).isSome = true ∧
        ∀ x ∈ subtractions (s.roundRobinIndex.toUInt32 % totalWeight) s.healthyBackends, x.2 ≤ x.1

/-- `select` returns without a panic or an overflow, and with a healthy backend of the list where there is
one. -/
structure SelectsSafely (s : LoadBalancer) (roll : Nat) : Prop where
  returns : ∃ selected, (s.select roll).1 = .ok selected
  additions : s.config.strategy = .weightedRoundRobin →
    ∀ x ∈ additions 0 s.healthyWeights, x.1.toNat + x.2.toNat < UInt32.size
  subtractions : s.config.strategy = .weightedRoundRobin →
    ∀ totalWeight, sumWeights s.overflowChecks 0 s.healthyWeights = .ok totalWeight →
      ∀ x ∈ subtractions (s.roundRobinIndex.toUInt32 % totalWeight) s.healthyBackends, x.2 ≤ x.1
  healthy : (∃ r ∈ s.backends, s.isHealthy r = true) → ∃ g, (s.select roll).1 = .ok (some g) ∧
    g.state ∈ s.backends ∧ s.isHealthy g.state = true

/-- Every selection of the run is safe. -/
def SafeSelection (s : LoadBalancer) (e : BalancerEvent) : Prop := ∀ roll, e = .select roll → s.SelectsSafely roll

/-- A selection by weight finds healthy backends, if any, with a total weight that is neither zero nor too
large for a `u32`. -/
def WeightsFit (s : LoadBalancer) (e : BalancerEvent) : Prop :=
  isSelect e = true → s.config.strategy = .weightedRoundRobin → s.candidates ≠ [] →
    0 < totalWeight s.candidates ∧ totalWeight s.candidates < UInt32.size

/-! ## Out of rotation -/

/-- What an event says about an address: whether it takes its backends out of rotation or may bring one in. -/
def takesOut (address : String) : BalancerEvent → Option Bool
  | .setBackendHealth _ a healthy => if a = address then some !healthy else none
  | .addBackend _ backend => if backend.address = address then some false else none
  | _ => none

/-- The last event that is about the address took its backends out of rotation. The trace has the latest event
first. -/
def takenOut (address : String) (trace : List BalancerEvent) : Bool :=
  (trace.findSome? (takesOut address)).getD false

/-- No backend whose address was taken out of rotation is among the candidates. -/
def OutOfRotation (t : List BalancerEvent × LoadBalancer) : Prop :=
  ∀ g ∈ t.2.candidates, takenOut g.backend.address t.1 = false

/-- A selection returns no backend whose address was taken out of rotation. -/
def SelectsInRotation (t : List BalancerEvent × LoadBalancer) (e : BalancerEvent) : Prop :=
  ∀ roll, e = .select roll → ∀ g, (t.2.select roll).1 = .ok (some g) → takenOut g.backend.address t.1 = false

/-- `set_backend_health` leaves the health of the backends of other addresses as it is. -/
def KeepsOthers (t : List BalancerEvent × LoadBalancer) (e : BalancerEvent) : Prop :=
  ∀ now address healthy, e = .setBackendHealth now address healthy → ∀ s', t.2.step e = some s' →
    ∀ (r : Nat) (b : BackendState), t.2.entries[r]? = some b → b.backend.address ≠ address →
      s'.entries[r]? = some b

def marksOut : BalancerEvent → Option String
  | .setBackendHealth _ address false => some address
  | _ => none

/-- An address is taken out of rotation while only the first backend of the list that has it is healthy, if
any. -/
def MarksEvery (t : List BalancerEvent × LoadBalancer) (e : BalancerEvent) : Prop :=
  ∀ address ∈ marksOut e, ∀ g ∈ t.2.candidates, g.backend.address = address →
    t.2.backends.find? (t.2.hasAddress address) = some g.state

instance (t : List BalancerEvent × LoadBalancer) (e : BalancerEvent) : Decidable (MarksEvery t e) :=
  inferInstanceAs (Decidable (∀ address ∈ marksOut e, _))

instance (s : LoadBalancer) (e : BalancerEvent) : Decidable (WeightsFit s e) :=
  inferInstanceAs (Decidable (_ → _ → _ → _ ∧ _))

end LoadBalancer

end NetworkSystem
