import NetworkSystem.Session.SessionCalls

/-!
# The cleanup task

The task of `TcpServer::start` that closes idle sessions, `src/core/server.rs`, with the sessions and the calls
that are made on them in between. It looks at one session after another under the lock of the list, and closes
those that it found idle one after another, each close with all its waits.

Times are clock readings; a call that reads the clock reads the one of its event.
-/

namespace NetworkSystem

open Steps

structure SessionTimeouts where
  readTimeout : Nat
  writeTimeout : Nat
  idleTimeout : Nat
  deriving Repr, DecidableEq

/-- Where the task stands. A session that was found idle stands with the reading at which it was. -/
inductive CleanupTask where
  /-- `cleanup_running.load(..)`. -/
  | checking
  | sleeping (wake : Nat)
  /-- The filter over the list: the sessions left to look at, and those found idle. -/
  | examining (todo : List Nat) (idle : List (Nat × Nat))
  | closing (rest : List (Nat × Nat))
  /-- `session.close().await`, as call `call` of the session. -/
  | awaiting (session call : Nat) (rest : List (Nat × Nat))
  | stopped
  deriving Repr, DecidableEq

/-- `completed` has the session and the reading of every `send` and `receive` that has returned `Ok`. -/
structure Cleanup where
  sessions : List (TaskPool.Pool SharedSession SessionCall) := []
  listed : List Nat := []
  running : Bool := true
  task : CleanupTask := .checking
  completed : List (Nat × Nat) := []
  deriving DecidableEq

inductive CleanupEvent where
  /-- A connection is accepted, whose peer will send these bytes. -/
  | accept (incoming : Bytes)
  /-- The session's task is over and takes it off the list. -/
  | remove (i : Nat)
  | stop
  | session (i : Nat) (e : TaskPool.Event SessionRequest SessionEvent)
  | cleanup
  deriving Repr, DecidableEq

/-- The reading that the call takes. -/
def SessionEvent.reading : SessionEvent → Option Nat
  | .send (.check now) | .send (.done now) | .receive (.check now) | .receive (.lockRead _ now)
  | .receive (.read _ now) => some now
  | _ => none

def readsAt (now : Nat) : TaskPool.Event SessionRequest SessionEvent → Prop
  | .spawn _ => True
  | .act _ e => ∀ t ∈ e.reading, t = now

instance (now : Nat) : (e : TaskPool.Event SessionRequest SessionEvent) → Decidable (readsAt now e)
  | .spawn _ => inferInstanceAs (Decidable True)
  | .act _ e => inferInstanceAs (Decidable (∀ t ∈ e.reading, t = now))

/-- The step has ended a `send` or a `receive` with `Ok`. -/
def completesOk (p : TaskPool.Pool SharedSession SessionCall) :
    TaskPool.Event SessionRequest SessionEvent → Bool
  | .spawn _ => false
  | .act j _ => (p.tasks[j]?).any SessionCall.completedOk

namespace Cleanup

def isExamining (c : Cleanup) : Bool :=
  match c.task with
  | .examining _ _ => true
  | _ => false

def sessionStep (c : Cleanup) (now i : Nat) (e : TaskPool.Event SessionRequest SessionEvent) : Option Cleanup :=
  if readsAt now e then
    (c.sessions[i]?).bind fun p =>
      (sessionCalls.step p e).map fun p' =>
        { c with
          sessions := c.sessions.set i p'
          completed := if completesOk p' e then (i, now) :: c.completed else c.completed }
  else none

def cleanupStep (timeouts : SessionTimeouts) (c : Cleanup) (now : Nat) : Option Cleanup :=
  match c.task with
  | .checking =>
      some { c with task := if c.running then .sleeping (now + timeouts.idleTimeout / 2) else .stopped }
  | .sleeping wake => if wake ≤ now then some { c with task := .examining c.listed [] } else none
  | .examining [] idle => some { c with task := .closing idle }
  | .examining (i :: todo) idle =>
      (c.sessions[i]?).map fun p =>
        { c with task := .examining todo (if p.shared.session.isIdle now then idle ++ [(i, now)] else idle) }
  | .closing [] => some { c with task := .checking }
  | .closing ((i, _) :: rest) =>
      (c.sessions[i]?).bind fun p =>
        (sessionCalls.step p (.spawn .close)).map fun p' =>
          { c with sessions := c.sessions.set i p', task := .awaiting i p.tasks.length rest }
  | .awaiting i call rest =>
      if ((c.sessions[i]?).bind (·.tasks[call]?)) = some (.close .returned) then some { c with task := .closing rest }
      else none
  | .stopped => none

/-- The list is locked while the task looks at it. -/
def timedStep (timeouts : SessionTimeouts) (c : Cleanup) (now : Nat) : CleanupEvent → Option Cleanup
  | .accept incoming =>
      if c.isExamining then none
      else
        some { c with
          sessions := c.sessions ++
            [SharedSession.new now timeouts.readTimeout timeouts.writeTimeout timeouts.idleTimeout incoming]
          listed := c.listed ++ [c.sessions.length] }
  | .remove i => if c.isExamining then none else some { c with listed := c.listed.filter (· != i) }
  | .stop => some { c with running := false }
  | .session i e => c.sessionStep now i e
  | .cleanup => c.cleanupStep timeouts now

def step (timeouts : SessionTimeouts) : Clocked Cleanup → Nat × CleanupEvent → Option (Clocked Cleanup) :=
  clocked (timedStep timeouts)

def fresh (start : Nat) : Clocked Cleanup := ⟨start, {}⟩

/-! ## Closes -/

/-- The session whose close the event starts, with the reading at which it was found idle. -/
def starts (c : Cleanup) : CleanupEvent → Option (Nat × Nat)
  | .cleanup =>
      match c.task with
      | .closing (s :: _) => some s
      | _ => none
  | _ => none

/-- A session whose close is started has not sent or received anything within the idle timeout. -/
def ClosesIdle (timeouts : SessionTimeouts) (c : Clocked Cleanup) (e : Nat × CleanupEvent) : Prop :=
  ∀ s ∈ c.state.starts e.2, c.now ≤ e.1 → ∀ done ∈ c.state.completed, done.1 = s.1 →
    done.2 + timeouts.idleTimeout < e.1

/-- What the session sent or received since it was found idle is not within the idle timeout. -/
def QuietSinceFound (timeouts : SessionTimeouts) (c : Clocked Cleanup) (e : Nat × CleanupEvent) : Prop :=
  ∀ s ∈ c.state.starts e.2, c.now ≤ e.1 → ∀ done ∈ c.state.completed, done.1 = s.1 → s.2 ≤ done.2 →
    done.2 + timeouts.idleTimeout < e.1

instance (timeouts : SessionTimeouts) (c : Clocked Cleanup) (e : Nat × CleanupEvent) :
    Decidable (ClosesIdle timeouts c e) :=
  inferInstanceAs (Decidable (∀ s ∈ c.state.starts e.2, _))

instance (timeouts : SessionTimeouts) (c : Clocked Cleanup) (e : Nat × CleanupEvent) :
    Decidable (QuietSinceFound timeouts c e) :=
  inferInstanceAs (Decidable (∀ s ∈ c.state.starts e.2, _))

end Cleanup

end NetworkSystem
