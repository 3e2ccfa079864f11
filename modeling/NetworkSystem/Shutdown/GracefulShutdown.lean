import NetworkSystem.Lib.TaskPool

/-!
# Graceful shutdown

`GracefulShutdown` and `ShutdownGuard` of `src/stability/graceful_shutdown.rs`. Any number of tasks call
`enter`, drop their guards, call `shutdown` and wait; every access to the flag, the counter or the
`Notify` is a step of its own.

`notified()` remembers how many times `notify_waiters` had been called when the future was created, and
the future is ready once there were more calls: a call wakes exactly the futures that exist already. The
counter is a natural number.
-/

namespace NetworkSystem

open TaskPool

/-- `notifyCalls` counts the calls of `notify_waiters` on `all_completed`. -/
structure GracefulShutdown where
  shutdownRequested : Bool := false
  activeRequests : Nat := 0
  notifyCalls : Nat := 0
  deriving Repr, DecidableEq

inductive ShutdownCallKind where
  | enter
  | shutdown
  | waitForCompletion
  | shutdownAndWait
  deriving Repr, DecidableEq

/-- Where a call of `enter`, with the guard that it returned, or a call of the other functions stands.
`after` tells whether shutdown had been requested when the wait began. -/
inductive ShutdownCall where
  | entering
  /-- The flag was not set; the counter is not raised yet. -/
  | checked
  | rejected
  /-- `enter` returned `Some(guard)`, and the guard was not dropped. -/
  | live
  /-- The drop has lowered the counter from 1 and not notified yet. -/
  | notifying
  | ended
  | requesting (andWait : Bool)
  | requested
  | waiting
  /-- The wait began; `wait_until_idle` was not polled. -/
  | started (after : Bool)
  | loading (after : Bool)
  /-- The counter was not zero; the notification is not registered yet. -/
  | loaded (after : Bool)
  /-- `notified().await`, for more than `seen` calls. -/
  | parked (after : Bool) (seen : Nat)
  | completed (after : Bool)
  | timedOut (after : Bool)
  | abandoned
  deriving Repr, DecidableEq

inductive ShutdownEvent where
  /-- The next statement; for a live guard, its drop. -/
  | go
  /-- The `sleep` branch of `select!` is taken. -/
  | timer
  /-- The caller drops a wait. -/
  | abandon
  deriving Repr, DecidableEq

namespace GracefulShutdown

/-- `active_requests.load() == 0` of `wait_until_idle`. -/
def loadIdle (s : GracefulShutdown) (after : Bool) : ShutdownCall :=
  if s.activeRequests = 0 then .completed after else .loaded after

def go (s : GracefulShutdown) : ShutdownCall → Option (GracefulShutdown × ShutdownCall)
  | .entering => some (s, if s.shutdownRequested then .rejected else .checked)
  | .checked => some ({ s with activeRequests := s.activeRequests + 1 }, .live)
  -- `fetch_sub` returns the value before
  | .live =>
      some ({ s with activeRequests := s.activeRequests - 1 },
        if s.activeRequests = 1 then .notifying else .ended)
  | .notifying => some ({ s with notifyCalls := s.notifyCalls + 1 }, .ended)
  | .requesting andWait =>
      some ({ s with shutdownRequested := true }, if andWait then .waiting else .requested)
  | .waiting => some (s, .started s.shutdownRequested)
  | .started after => some (s, s.loadIdle after)
  | .loading after => some (s, s.loadIdle after)
  | .loaded after => some (s, .parked after s.notifyCalls)
  | .parked after seen => if seen < s.notifyCalls then some (s, .loading after) else none
  | .rejected | .ended | .requested | .completed _ | .timedOut _ | .abandoned => none

/-- One step of a call. Between two polls a wait is at its start or parked. -/
def callStep (s : GracefulShutdown) (c : ShutdownCall) :
    ShutdownEvent → Option (GracefulShutdown × ShutdownCall)
  | .go => s.go c
  | .timer =>
      match c with
      | .started after | .parked after _ => some (s, .timedOut after)
      | _ => none
  | .abandon =>
      match c with
      | .started _ | .parked _ _ => some (s, .abandoned)
      | _ => none

def start : ShutdownCallKind → ShutdownCall
  | .enter => .entering
  | .shutdown => .requesting false
  | .waitForCompletion => .waiting
  | .shutdownAndWait => .requesting true

end GracefulShutdown

/-- Calls on one coordinator, by any number of tasks. -/
def shutdownCalls : Program GracefulShutdown ShutdownCall ShutdownCallKind ShutdownEvent where
  start := GracefulShutdown.start
  act := GracefulShutdown.callStep

abbrev ShutdownPool := Pool GracefulShutdown ShutdownCall

def GracefulShutdown.fresh : ShutdownPool := ⟨{}, []⟩

/-! ## What the waits promise -/

namespace ShutdownPool

/-- A wait that began after shutdown was requested has returned `true`: no guard is live, and no step
makes a call of `enter` return one. -/
def AdmitsNothing (p : ShutdownPool) : Prop :=
  .completed true ∈ p.tasks → .live ∉ p.tasks ∧
    ∀ e p', shutdownCalls.step p e = some p' → .live ∉ p'.tasks

/-- While a wait is parked on a notification that was not issued, a request is active or the drop of a
guard is in progress. -/
def NoLostWakeup (p : ShutdownPool) : Prop :=
  ∀ after, .parked after p.shared.notifyCalls ∈ p.tasks →
    p.shared.activeRequests ≠ 0 ∨ .notifying ∈ p.tasks

/-- When a wait returns `false`, a guard is live or the drop of a guard is in progress. -/
def HonestTimeout (p : ShutdownPool) : Event ShutdownCallKind ShutdownEvent → Prop
  | .act _ .timer => .live ∈ p.tasks ∨ .notifying ∈ p.tasks
  | _ => True

/-! ## The conditions on the interleaving -/

/-- A wait that began after shutdown was requested reads the counter as zero only when no call of `enter`
is between its check and its increment. -/
def NoEnterPastCheck (p : ShutdownPool) : Event ShutdownCallKind ShutdownEvent → Prop
  | .act i .go =>
      p.tasks[i]? = some (.started true) ∨ p.tasks[i]? = some (.loading true) →
        p.shared.activeRequests = 0 → .checked ∉ p.tasks
  | _ => True

/-- The last drop in progress does not notify while a wait is between its load and its registration, and
with the counter at zero the timer is only taken by a wait that is parked and not notified. -/
def NotifiesRegistered (p : ShutdownPool) : Event ShutdownCallKind ShutdownEvent → Prop
  | .act i .go =>
      p.tasks[i]? = some .notifying → p.shared.activeRequests = 0 → .notifying ∉ p.tasks.eraseIdx i →
        ∀ after, .loaded after ∉ p.tasks
  | .act i .timer =>
      p.shared.activeRequests = 0 →
        ∃ after, p.tasks[i]? = some (.parked after p.shared.notifyCalls)
  | _ => True

instance (p : ShutdownPool) (e : Event ShutdownCallKind ShutdownEvent) :
    Decidable (p.NoEnterPastCheck e) :=
  match e with
  | .act _ .go => inferInstanceAs (Decidable (_ → _ → _))
  | .act _ .timer | .act _ .abandon | .spawn _ => inferInstanceAs (Decidable True)

instance (p : ShutdownPool) (e : Event ShutdownCallKind ShutdownEvent) :
    Decidable (p.NotifiesRegistered e) :=
  match e with
  | .act _ .go => inferInstanceAs (Decidable (_ → _ → _ → ∀ _, _))
  | .act _ .timer => inferInstanceAs (Decidable (_ → ∃ _, _))
  | .act _ .abandon | .spawn _ => inferInstanceAs (Decidable True)

end ShutdownPool

end NetworkSystem
