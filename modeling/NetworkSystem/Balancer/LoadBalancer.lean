import Mathlib.Data.List.MinMax
import NetworkSystem.Lib.Handles

/-!
# The load balancer

`src/pooling/load_balancer.rs`. The states of the backends are shared, so they stand in `entries` and are
named by their position; an entry stays there when its backend is removed. A guard likewise stays in `guards`
until it is dropped.

The results of the checks of `start_health_checks` are events: each is of a task that holds an entry, and
comes whenever the check is over. Times are clock readings in nanoseconds.
-/

namespace NetworkSystem

open Steps

structure Backend where
  address : String
  weight : UInt32
  deriving Repr, DecidableEq

/-- Guards live in memory, so that counting them does not get near the end of a `usize`. -/
structure BackendState where
  backend : Backend
  healthy : Bool
  activeConnections : Nat
  totalRequests : UInt64
  failedRequests : UInt64
  consecutiveFailures : UInt32
  lastCheck : Nat
  deriving Repr, DecidableEq

namespace BackendState

def new (backend : Backend) (now : Nat) : BackendState := ⟨backend, true, 0, 0, 0, 0, now⟩

def markHealthy (b : BackendState) (now : Nat) : BackendState :=
  { b with healthy := true, consecutiveFailures := 0, lastCheck := now }

def markUnhealthy (b : BackendState) (now : Nat) : BackendState :=
  { b with healthy := false, lastCheck := now }

def recordRequest (b : BackendState) (success : Bool) : BackendState :=
  let b := { b with totalRequests := b.totalRequests + 1 }
  if success then { b with consecutiveFailures := 0 }
  else
    { b with
      failedRequests := b.failedRequests + 1
      consecutiveFailures := b.consecutiveFailures + 1 }

/-- What a task of `start_health_checks` does with the result of its check. -/
def checked (b : BackendState) (threshold : UInt32) (now : Nat) (isHealthy : Bool) : BackendState :=
  if isHealthy then b.markHealthy now
  else if b.consecutiveFailures ≥ threshold then b.markUnhealthy now
  else b

def addConnection (b : BackendState) : BackendState :=
  { b with activeConnections := b.activeConnections + 1 }

end BackendState

/-- `fetch_sub(1)` on a `usize`, which wraps around below zero. -/
def fetchSub (n : Nat) : Nat := if n = 0 then UInt64.size - 1 else n - 1

def BackendState.dropConnection (b : BackendState) : BackendState :=
  { b with activeConnections := fetchSub b.activeConnections }

inductive Strategy where
  | roundRobin
  | leastConnections
  | weightedRoundRobin
  | random
  deriving Repr, DecidableEq

structure HealthCheckConfig where
  unhealthyThreshold : UInt32
  healthyThreshold : UInt32
  deriving Repr, DecidableEq

structure LoadBalancerConfig where
  strategy : Strategy
  healthCheck : Option HealthCheckConfig
  deriving Repr, DecidableEq

structure BackendGuard where
  backend : Backend
  state : Nat
  deriving Repr, DecidableEq

/-- `overflowChecks` tells whether the build panics when an addition overflows. -/
structure LoadBalancer where
  config : LoadBalancerConfig
  overflowChecks : Bool
  entries : List BackendState
  backends : List Nat
  roundRobinIndex : UInt64
  guards : List (Option BackendGuard)
  deriving Repr, DecidableEq

inductive Panic where
  | addOverflow
  | remainderByZero
  deriving Repr, DecidableEq

/-- A backend of the list, with the position of its entry. -/
abbrev Listed := Nat × BackendState

/-- `sum()` over the weights. -/
def sumWeights (overflowChecks : Bool) : UInt32 → List UInt32 → Except Panic UInt32
  | total, [] => .ok total
  | total, weight :: weights =>
      if overflowChecks && total.toNat + weight.toNat ≥ UInt32.size then .error .addOverflow
      else sumWeights overflowChecks (total + weight) weights

/-- The loop of `select_weighted_round_robin`. -/
def pickWeighted : UInt32 → List Listed → Option Listed
  | _, [] => none
  | target, b :: backends =>
      if target < b.2.backend.weight then some b else pickWeighted (target - b.2.backend.weight) backends

namespace LoadBalancer

def new (config : LoadBalancerConfig) (overflowChecks : Bool) (now : Nat) (backends : List Backend) :
    LoadBalancer where
  config := config
  overflowChecks := overflowChecks
  entries := backends.map fun b => .new b now
  backends := List.range backends.length
  roundRobinIndex := 0
  guards := []

/-! ## `select` -/

def listed (s : LoadBalancer) : List Listed := s.backends.filterMap fun r => s.entries[r]?.map (r, ·)

def healthyBackends (s : LoadBalancer) : List Listed := s.listed.filter (·.2.healthy)

def selectRoundRobin (s : LoadBalancer) (backends : List Listed) :
    Except Panic (Option Listed) × LoadBalancer :=
  (.ok backends[s.roundRobinIndex.toNat % backends.length]?,
    { s with roundRobinIndex := s.roundRobinIndex + 1 })

/-- `min_by_key`, which takes the first of several minima. -/
def selectLeastConnections (backends : List Listed) : Option Listed :=
  backends.argmin (·.2.activeConnections)

def selectWeightedRoundRobin (s : LoadBalancer) (backends : List Listed) :
    Except Panic (Option Listed) × LoadBalancer :=
  match sumWeights s.overflowChecks 0 (backends.map (·.2.backend.weight)) with
  | .error p => (.error p, s)
  | .ok totalWeight =>
      let index := s.roundRobinIndex.toUInt32
      let s := { s with roundRobinIndex := s.roundRobinIndex + 1 }
      if totalWeight = 0 then (.error .remainderByZero, s)
      else (.ok ((pickWeighted (index % totalWeight) backends).or backends.head?), s)

/-- `gen_range(0..len)`: `roll` stands for the generator. -/
def selectRandom (roll : Nat) (backends : List Listed) : Option Listed := backends[roll % backends.length]?

def selectBy (s : LoadBalancer) (roll : Nat) (backends : List Listed) :
    Except Panic (Option Listed) × LoadBalancer :=
  match s.config.strategy with
  | .roundRobin => s.selectRoundRobin backends
  | .leastConnections => (.ok (selectLeastConnections backends), s)
  | .weightedRoundRobin => s.selectWeightedRoundRobin backends
  | .random => (.ok (selectRandom roll backends), s)

/-- The guard of the selected backend, and the balancer that counts it. -/
def guard (s : LoadBalancer) (b : Listed) : BackendGuard × LoadBalancer :=
  (⟨b.2.backend, b.1⟩,
    { s with
      entries := s.entries.modify b.1 .addConnection
      guards := s.guards ++ [some ⟨b.2.backend, b.1⟩] })

def select (s : LoadBalancer) (roll : Nat) : Except Panic (Option BackendGuard) × LoadBalancer :=
  if s.backends.isEmpty then (.ok none, s)
  else if s.healthyBackends.isEmpty then (.ok none, s)
  else
    match s.selectBy roll s.healthyBackends with
    | (.error p, s) => (.error p, s)
    | (.ok none, s) => (.ok none, s)
    | (.ok (some b), s) => (.ok (some (s.guard b).1), (s.guard b).2)

/-! ## The list of backends -/

def addBackend (s : LoadBalancer) (now : Nat) (backend : Backend) : LoadBalancer :=
  { s with
    entries := s.entries ++ [.new backend now]
    backends := s.backends ++ [s.entries.length] }

def hasAddress (s : LoadBalancer) (address : String) (r : Nat) : Bool :=
  s.entries[r]?.any (·.backend.address == address)

def removeBackend (s : LoadBalancer) (address : String) : LoadBalancer :=
  { s with backends := s.backends.filter fun r => !s.hasAddress address r }

def setBackendHealth (s : LoadBalancer) (now : Nat) (address : String) (healthy : Bool) : LoadBalancer :=
  match s.backends.find? (s.hasAddress address) with
  | none => s
  | some r =>
      { s with entries := s.entries.modify r fun b => if healthy then b.markHealthy now else b.markUnhealthy now }

end LoadBalancer

/-! ## Runs -/

inductive BalancerEvent where
  | select (roll : Nat)
  | drop (i : Nat)
  | record (i : Nat) (success : Bool)
  | addBackend (now : Nat) (backend : Backend)
  | removeBackend (address : String)
  | setBackendHealth (now : Nat) (address : String) (healthy : Bool)
  /-- A health check of entry `r` is over. -/
  | check (now r : Nat) (isHealthy : Bool)
  deriving Repr, DecidableEq

namespace LoadBalancer

def dropGuard (s : LoadBalancer) (i : Nat) : Option LoadBalancer :=
  match s.guards[i]? with
  | some (some g) =>
      some { s with entries := s.entries.modify g.state .dropConnection, guards := s.guards.set i none }
  | _ => none

def record (s : LoadBalancer) (i : Nat) (success : Bool) : Option LoadBalancer :=
  match s.guards[i]? with
  | some (some g) => some { s with entries := s.entries.modify g.state (·.recordRequest success) }
  | _ => none

/-- Checks run only where health checks are configured. -/
def check (s : LoadBalancer) (now r : Nat) (isHealthy : Bool) : Option LoadBalancer :=
  match s.config.healthCheck with
  | some config =>
      if r < s.entries.length then
        some { s with entries := s.entries.modify r (·.checked config.unhealthyThreshold now isHealthy) }
      else none
  | none => none

def step (s : LoadBalancer) : BalancerEvent → Option LoadBalancer
  | .select roll => some (s.select roll).2
  | .drop i => s.dropGuard i
  | .record i success => s.record i success
  | .addBackend now backend => some (s.addBackend now backend)
  | .removeBackend address => some (s.removeBackend address)
  | .setBackendHealth now address healthy => some (s.setBackendHealth now address healthy)
  | .check now r isHealthy => s.check now r isHealthy

/-! ## Live guards -/

def liveGuards (s : LoadBalancer) (r : Nat) : Nat :=
  s.guards.countP fun g => g.any (·.state == r)

def isHealthy (s : LoadBalancer) (r : Nat) : Bool := s.entries[r]?.any (·.healthy)

/-- What `select` returns under `Strategy::LeastConnections`: nothing exactly when no backend of the list is
healthy, and otherwise a guard of a healthy one that has the fewest live guards among the healthy ones. -/
structure SelectsLeast (s : LoadBalancer) (result : Except Panic (Option BackendGuard)) : Prop where
  none_iff : result = .ok none ↔ ∀ r ∈ s.backends, s.isHealthy r = false
  least : (∃ r ∈ s.backends, s.isHealthy r = true) → ∃ g, result = .ok (some g) ∧ g.state ∈ s.backends ∧
    s.isHealthy g.state = true ∧ ∀ r ∈ s.backends, s.isHealthy r = true → s.liveGuards g.state ≤ s.liveGuards r

/-- The counters of the entries are the numbers of their live guards. No drop finds a counter at zero. -/
structure CountsGuards (s : LoadBalancer) : Prop where
  counted : ∀ r b, s.entries[r]? = some b → b.activeConnections = s.liveGuards r
  positive : ∀ (i : Nat) (g : BackendGuard), s.guards[i]? = some (some g) →
    ∃ b, s.entries[g.state]? = some b ∧ 0 < b.activeConnections
  least : s.config.strategy = .leastConnections → ∀ roll, SelectsLeast s (s.select roll).1

/-! ## Health checks -/

/-- The result that the event brings to entry `r`. -/
def checkOf (r : Nat) : BalancerEvent → Option Bool
  | .check _ r' isHealthy => if r' = r then some isHealthy else none
  | _ => none

def setsHealth : BalancerEvent → Bool
  | .setBackendHealth _ _ _ => true
  | _ => false

/-- The results of the checks of entry `r`, the latest first. -/
def checks (r : Nat) (trace : List BalancerEvent) : List Bool := trace.filterMap (checkOf r)

/-- The last `n` checks came out as `isHealthy`. -/
def LastChecks (n : UInt32) (isHealthy : Bool) (results : List Bool) : Prop :=
  results.take n.toNat = List.replicate n.toNat isHealthy

instance (n : UInt32) (isHealthy : Bool) (results : List Bool) : Decidable (LastChecks n isHealthy results) :=
  inferInstanceAs (Decidable (_ = _))

/-- After the event entry `r` is not healthy if its last checks all failed, and the event does not turn it
healthy if its last checks did not all succeed. -/
def FollowsThresholds (config : HealthCheckConfig) (r : Nat) (s : List BalancerEvent × LoadBalancer)
    (e : BalancerEvent) : Prop :=
  ∀ s', s.2.step e = some s' → ∀ b', s'.entries[r]? = some b' →
    (LastChecks config.unhealthyThreshold false (checks r (e :: s.1)) → b'.healthy = false) ∧
      ∀ b, s.2.entries[r]? = some b → b.healthy = false → b'.healthy = true →
        LastChecks config.healthyThreshold true (checks r (e :: s.1))

/-- A check that fails as the last of `unhealthy_threshold` in a row, while the backend is still healthy, finds
as many failed requests counted. A check succeeds only while it is healthy, unless `healthy_threshold` is 1. -/
def ChecksMeetCounter (config : HealthCheckConfig) (r : Nat) (s : List BalancerEvent × LoadBalancer)
    (e : BalancerEvent) : Prop :=
  ∀ b ∈ s.2.entries[r]?,
    match checkOf r e with
    | some false =>
        b.healthy = true → LastChecks config.unhealthyThreshold false (false :: checks r s.1) →
          config.unhealthyThreshold ≤ b.consecutiveFailures
    | some true => b.healthy = true ∨ config.healthyThreshold = 1
    | none => True

instance (config : HealthCheckConfig) (r : Nat) (s : List BalancerEvent × LoadBalancer) (e : BalancerEvent) :
    Decidable (ChecksMeetCounter config r s e) :=
  have (b : BackendState) : Decidable
      (match checkOf r e with
      | some false =>
          b.healthy = true → LastChecks config.unhealthyThreshold false (false :: checks r s.1) →
            config.unhealthyThreshold ≤ b.consecutiveFailures
      | some true => b.healthy = true ∨ config.healthyThreshold = 1
      | none => True) :=
    match checkOf r e with
    | some false => inferInstanceAs (Decidable (_ → _ → _ ≤ _))
    | some true => inferInstanceAs (Decidable (_ ∨ _))
    | none => inferInstanceAs (Decidable True)
  inferInstanceAs (Decidable (∀ b ∈ s.2.entries[r]?, _))

end LoadBalancer

end NetworkSystem
