import NetworkSystem.Lib.Steps

/-!
# The circuit breaker

`CircuitBreaker` of `src/stability/circuit_breaker.rs`. Every function takes the write lock for its whole
body, so that a run of the breaker is a list of calls of `is_request_allowed`, `record_success`,
`record_failure` and `reset`, each with the reading of the clock under the lock. `call` takes the lock twice
and polls its future in between: `BreakerCalls` lets the steps of any number of calls interleave with each
other and with direct calls of the functions.

Times are clock readings and durations in nanoseconds; a `Duration` since a later reading is zero. The
counters wrap, as a release build lets them.
-/

namespace NetworkSystem

inductive CircuitState where
  | closed
  | «open»
  | halfOpen
  deriving Repr, DecidableEq

structure CircuitBreakerConfig where
  failureThreshold : UInt32 := 5
  successThreshold : UInt32 := 2
  timeout : Nat := 60000000000
  windowSize : Nat := 10000000000
  deriving Repr, DecidableEq

/-- `CircuitBreakerState`, which the lock protects. -/
structure CircuitBreaker where
  state : CircuitState := .closed
  failureCount : UInt32 := 0
  successCount : UInt32 := 0
  lastFailureTime : Option Nat := none
  openedAt : Option Nat := none
  deriving Repr, DecidableEq

namespace CircuitBreaker

def isRequestAllowed (config : CircuitBreakerConfig) (s : CircuitBreaker) (now : Nat) :
    Bool × CircuitBreaker :=
  match s.state with
  | .closed => (true, s)
  | .«open» =>
      match s.openedAt with
      | some openedAt =>
          if now - openedAt ≥ config.timeout then
            (true, { s with state := .halfOpen, successCount := 0, failureCount := 0 })
          else (false, s)
      | none => (false, s)
  | .halfOpen => (true, s)

def recordSuccess (config : CircuitBreakerConfig) (s : CircuitBreaker) : CircuitBreaker :=
  match s.state with
  | .closed => { s with failureCount := 0, lastFailureTime := none }
  | .halfOpen =>
      let s := { s with successCount := s.successCount + 1 }
      if s.successCount ≥ config.successThreshold then
        { s with state := .closed, failureCount := 0, successCount := 0, openedAt := none }
      else s
  | .«open» => s

def windowExpired (config : CircuitBreakerConfig) (s : CircuitBreaker) (now : Nat) : Bool :=
  match s.lastFailureTime with
  | some lastFailure => decide (now - lastFailure > config.windowSize)
  | none => false

/-- The failure count after the check of the window, before `record_failure` looks at the state. -/
def windowedCount (config : CircuitBreakerConfig) (s : CircuitBreaker) (now : Nat) : UInt32 :=
  if s.windowExpired config now then 0 else s.failureCount

def recordFailure (config : CircuitBreakerConfig) (s : CircuitBreaker) (now : Nat) : CircuitBreaker :=
  let s := { s with failureCount := s.windowedCount config now, lastFailureTime := some now }
  match s.state with
  | .closed =>
      let s := { s with failureCount := s.failureCount + 1 }
      if s.failureCount ≥ config.failureThreshold then
        { s with state := .«open», openedAt := some now }
      else s
  | .halfOpen =>
      { s with state := .«open», openedAt := some now, failureCount := 1, successCount := 0 }
  | .«open» => { s with failureCount := s.failureCount + 1 }

def reset (s : CircuitBreaker) : CircuitBreaker :=
  { s with state := .closed, failureCount := 0, successCount := 0, lastFailureTime := none,
           openedAt := none }

end CircuitBreaker

/-! ## Runs of the breaker -/

inductive BreakerOp where
  | isRequestAllowed
  | recordSuccess
  | recordFailure
  | reset
  deriving Repr, DecidableEq

def CircuitBreaker.apply (config : CircuitBreakerConfig) (s : CircuitBreaker) (now : Nat) :
    BreakerOp → CircuitBreaker
  | .isRequestAllowed => (s.isRequestAllowed config now).2
  | .recordSuccess => s.recordSuccess config
  | .recordFailure => s.recordFailure config now
  | .reset => s.reset

def CircuitBreaker.step (config : CircuitBreakerConfig) :
    Steps.Clocked CircuitBreaker → Nat × BreakerOp → Option (Steps.Clocked CircuitBreaker) :=
  Steps.clocked fun s now op => some (s.apply config now op)

def CircuitBreaker.fresh : Steps.Clocked CircuitBreaker := ⟨0, {}⟩

/-! ## Calls -/

inductive BreakerCall where
  | entering
  | rejected
  /-- `f.await`. -/
  | polling
  /-- The inner future has ended, and its result is not recorded yet. -/
  | resolved (ok : Bool)
  | returned (ok : Bool)
  /-- The caller has dropped the call before its end. -/
  | dropped
  deriving Repr, DecidableEq

structure BreakerCalls where
  breaker : CircuitBreaker
  calls : List BreakerCall
  deriving Repr, DecidableEq

inductive BreakerEvent where
  | direct (op : BreakerOp)
  | call
  /-- The call at a place asks `is_request_allowed`. -/
  | enter (i : Nat)
  /-- The inner future is polled; `none` is `Pending`. -/
  | poll (i : Nat) (result : Option Bool)
  | record (i : Nat)
  | drop (i : Nat)
  deriving Repr, DecidableEq

namespace BreakerCalls

def callStep (config : CircuitBreakerConfig) (s : BreakerCalls) (now : Nat) :
    BreakerEvent → Option BreakerCalls
  | .direct op => some { s with breaker := s.breaker.apply config now op }
  | .call => some { s with calls := s.calls ++ [.entering] }
  | .enter i =>
      match s.calls[i]? with
      | some .entering =>
          match s.breaker.isRequestAllowed config now with
          | (true, breaker) => some ⟨breaker, s.calls.set i .polling⟩
          | (false, breaker) => some ⟨breaker, s.calls.set i .rejected⟩
      | _ => none
  | .poll i result =>
      match s.calls[i]?, result with
      | some .polling, none => some s
      | some .polling, some ok => some { s with calls := s.calls.set i (.resolved ok) }
      | _, _ => none
  | .record i =>
      match s.calls[i]? with
      | some (.resolved true) => some ⟨s.breaker.recordSuccess config, s.calls.set i (.returned true)⟩
      | some (.resolved false) =>
          some ⟨s.breaker.recordFailure config now, s.calls.set i (.returned false)⟩
      | _ => none
  | .drop i =>
      match s.calls[i]? with
      | some .entering | some .polling => some { s with calls := s.calls.set i .dropped }
      | _ => none

def step (config : CircuitBreakerConfig) :
    Steps.Clocked BreakerCalls → Nat × BreakerEvent → Option (Steps.Clocked BreakerCalls) :=
  Steps.clocked (callStep config)

def fresh : Steps.Clocked BreakerCalls := ⟨0, ⟨{}, []⟩⟩

end BreakerCalls

def BreakerEvent.asks : BreakerEvent → Bool
  | .direct .isRequestAllowed => true
  | .enter _ => true
  | _ => false

end NetworkSystem
