import NetworkSystem.Lib.Steps
import NetworkSystem.Server.SessionTask

/-!
# The server

`TcpServer` of `src/core/server.rs`: `start`, the accept loop, `stop`, and the session tasks, in any
interleaving. `start` and `stop` take `&mut self`, so one of them runs at a time; a call of `stop` is awaited to
its end, not dropped on the way.

Whoever holds a session may close it: the cleanup task, a handler, or the owner of the list that
`sessions()` returned. Its closes are events of their own. A session is dropped, and its socket with it, when no
`Arc` of it is left. The counters are natural numbers, and a server is stopped before it is dropped.
-/

namespace NetworkSystem

/-- What the accept loop and the session tasks use of a `ServerConfig`; `read_timeout` is in nanoseconds. -/
structure ServerConfig where
  maxConnections : Nat := 1000
  readTimeout : Nat := 30 * 1000000000
  keepAlive : Option Nat := some 60
  deriving Repr, DecidableEq

inductive AcceptStage where
  | absent
  /-- `select!` of `accept()` and the shutdown signal. -/
  | waiting
  | accepted
  | permitted
  | counted
  | ready
  /-- The socket could not be converted. -/
  | setupFailed
  /-- The iteration ends and drops its permit. -/
  | unwinding
  /-- `handle_connection` has spawned task `i` and not returned. -/
  | spawned (i : Nat)
  /-- The handle of task `i` is not tracked yet. -/
  | handed (i : Nat)
  | tracked
  | exiting
  | exited
  deriving Repr, DecidableEq

inductive CleanupStage where
  | absent
  | running
  | exited
  deriving Repr, DecidableEq

inductive ControlStage where
  | idle
  | signalling
  | joiningServer
  | joiningCleanup
  | snapshotting
  /-- The sessions that are left to close, and the next statement of the first `close`. -/
  | closing (todo : List Nat) (part : ClosePart)
  | clearing
  | taking
  /-- The handles that are left to abort. -/
  | aborting (todo : List Nat)
  deriving Repr, DecidableEq

/-- The sessions that `stop` holds in its snapshot. -/
def ControlStage.snapshot : ControlStage → List Nat
  | .closing todo _ => todo
  | _ => []

/-- `held` has a session for each `Arc` of it that is neither in the list nor with its task nor with `stop`: in a
`Vec` that `sessions()` has returned, or in the snapshot of a `broadcast` or of the cleanup task. -/
structure TcpServer where
  books : Books
  tasks : List SessionTask := []
  sessionTasks : List Nat := []
  held : List Nat := []
  running : Bool := false
  accept : AcceptStage := .absent
  cleanup : CleanupStage := .absent
  control : ControlStage := .idle
  shutdownSent : Bool := false
  deriving Repr, DecidableEq

inductive ServerEvent where
  | start
  | stop
  | control
  | connection
  | accept
  /-- The socket options are set, or the conversion fails. -/
  | setup (ok : Bool)
  | shutdownSignal
  | cleanupExit
  /-- An `Arc` of session `i` is cloned from the list, or by somebody who has one. -/
  | hold (i : Nat)
  | release (i : Nat)
  | close (i : Nat) (part : ClosePart)
  | task (i : Nat) (e : TaskEvent)
  deriving Repr, DecidableEq

namespace TcpServer

def withConfig (config : ServerConfig) : TcpServer := { books := { permits := config.maxConnections } }

def taskLive (s : TcpServer) (i : Nat) : Bool := (s.tasks[i]?).any SessionTask.live

/-- `start`, once the listener is bound. -/
def start (s : TcpServer) : Option TcpServer :=
  if s.control = .idle ∧ s.running = false then
    some { s with running := true, accept := .waiting, cleanup := .running, shutdownSent := false }
  else none

/-- The call of `stop`, which returns at once when the server is not running. -/
def stop (s : TcpServer) : Option TcpServer :=
  if s.control = .idle then
    if s.running then some { s with running := false, control := .signalling } else some s
  else none

def acceptStep (s : TcpServer) : Option TcpServer :=
  match s.accept with
  | .accepted =>
      -- `try_acquire_owned`; without a permit the stream is dropped
      if s.books.permits = 0 then some { s with accept := .waiting }
      else some { s with books := { s.books with permits := s.books.permits - 1 }, accept := .permitted }
  | .permitted =>
      some { s with
        books := { s.books with connectionCount := s.books.connectionCount + 1 }, accept := .counted }
  | .setupFailed =>
      some { s with
        books := { s.books with connectionCount := s.books.connectionCount - 1 }, accept := .unwinding }
  | .unwinding =>
      some { s with books := { s.books with permits := s.books.permits + 1 }, accept := .waiting }
  | .ready => some { s with tasks := s.tasks ++ [{}], accept := .spawned s.tasks.length }
  | .spawned i =>
      -- the return of `handle_connection` drops the parameters that the task does not own
      some { s with
        books := { s.books with permits := s.books.permits + (!permitCaptured).toNat }
        accept := .handed i }
  | .handed i => some { s with sessionTasks := s.sessionTasks ++ [i], accept := .tracked }
  | .tracked => some { s with sessionTasks := s.sessionTasks.filter s.taskLive, accept := .waiting }
  | .exiting => some { s with running := false, accept := .exited }
  | .absent | .waiting | .counted | .exited => none

/-- The statement of `stop` after one of `Session::close` on session `i`. -/
def afterClose (i : Nat) (todo : List Nat) : ClosePart → ControlStage
  | .active => .closing (i :: todo) .writeHalf
  | .writeHalf => .closing (i :: todo) .readHalf
  | .readHalf => .closing todo .active

def closeNext (s : TcpServer) (i : Nat) (todo : List Nat) (part : ClosePart) : Option TcpServer :=
  (s.tasks[i]?).bind fun t =>
    (t.close part).map fun t => { s with tasks := s.tasks.set i t, control := afterClose i todo part }

def controlStep (s : TcpServer) : Option TcpServer :=
  match s.control with
  | .idle => none
  | .signalling => some { s with shutdownSent := true, control := .joiningServer }
  | .joiningServer =>
      if s.accept = .exited ∨ s.accept = .absent then some { s with control := .joiningCleanup } else none
  | .joiningCleanup =>
      if s.cleanup ≠ .running then some { s with control := .snapshotting } else none
  | .snapshotting => some { s with control := .closing s.books.sessions .active }
  | .closing [] _ => some { s with control := .clearing }
  | .closing (i :: todo) part => s.closeNext i todo part
  | .clearing => some { s with books := { s.books with sessions := [] }, control := .taking }
  | .taking => some { s with sessionTasks := [], control := .aborting s.sessionTasks }
  | .aborting (i :: todo) =>
      (s.tasks[i]?).map fun t =>
        { s with tasks := s.tasks.set i t.abort, control := .aborting todo }
  | .aborting [] => some { s with running := false, control := .idle }

def step (config : ServerConfig) (s : TcpServer) : ServerEvent → Option TcpServer
  | .start => s.start
  | .stop => s.stop
  | .control => s.controlStep
  | .connection => if s.accept = .waiting then some { s with accept := .accepted } else none
  | .accept => s.acceptStep
  | .setup ok =>
      if s.accept = .counted then
        if ok then some { s with accept := .ready }
        else if config.keepAlive.isSome then some { s with accept := .setupFailed }
        else none
      else none
  | .shutdownSignal =>
      if s.accept = .waiting ∧ s.shutdownSent = true then some { s with accept := .exiting } else none
  | .cleanupExit =>
      if s.cleanup = .running ∧ s.running = false then some { s with cleanup := .exited } else none
  | .hold i => if i ∈ s.books.sessions ∨ i ∈ s.held then some { s with held := i :: s.held } else none
  | .release i => if i ∈ s.held then some { s with held := s.held.erase i } else none
  | .close i part =>
      (s.tasks[i]?).bind fun t =>
        (t.close part).map fun t => { s with tasks := s.tasks.set i t }
  | .task i e =>
      (s.tasks[i]?).bind fun t =>
        (t.step config.readTimeout i s.books e).map fun r => { s with books := r.1, tasks := s.tasks.set i r.2 }

def liveTasks (s : TcpServer) : Nat := s.tasks.countP SessionTask.live

/-- `stop` has returned, or `start` was never called. -/
def Stopped (s : TcpServer) : Prop := s.control = .idle ∧ s.running = false

instance (s : TcpServer) : Decidable s.Stopped := inferInstanceAs (Decidable (_ ∧ _))

/-! ## What the runs are asked for -/

def RejectsAtLimit (config : ServerConfig) (s : TcpServer) (e : ServerEvent) : Prop :=
  e = .accept → s.accept = .accepted → config.maxConnections ≤ s.liveTasks →
    ∀ s', step config s e = some s' → s'.accept = .waiting

/-- No connection is accepted while the limit is reached, unless the limit is zero. -/
def AcceptsBelowLimit (config : ServerConfig) (s : TcpServer) (e : ServerEvent) : Prop :=
  e = .accept → s.accept = .accepted → config.maxConnections = 0 ∨ s.liveTasks < config.maxConnections

/-- No accept is between its two updates of the connection count or on the way from the first to the spawn,
no task is between the creation of its session and its entry, and none is between the two updates at its end. -/
def Settled (s : TcpServer) : Prop :=
  s.accept ≠ .counted ∧ s.accept ≠ .ready ∧ s.accept ≠ .setupFailed ∧
    ∀ t ∈ s.tasks, t.stage ≠ .created ∧ t.stage ≠ .uncounting

instance (s : TcpServer) : Decidable s.Settled := inferInstanceAs (Decidable (_ ∧ _ ∧ _ ∧ _))

/-- The connection count is the number of live tasks, and the session list has exactly their sessions. -/
structure TracksLive (s : TcpServer) : Prop where
  count : s.books.connectionCount = s.liveTasks
  sessions : ∀ i, i ∈ s.books.sessions ↔ ∃ t, s.tasks[i]? = some t ∧ t.live = true ∧ t.session ≠ none
  once : s.books.sessions.Nodup

/-- Somebody has an `Arc` of session `i`: its task `t`, the list, `stop` while it closes, or somebody outside. -/
def HasArc (s : TcpServer) (i : Nat) (t : SessionTask) : Prop :=
  t.live = true ∨ i ∈ s.books.sessions ∨ i ∈ s.control.snapshot ∨ i ∈ s.held

/-- Session `i` of task `t` is closed: `close` has taken both halves, or the session is dropped. -/
def SessionClosed (s : TcpServer) (i : Nat) (t : SessionTask) : Prop :=
  t.session = some ⟨false, false, false⟩ ∨ ¬ s.HasArc i t

/-- No session is listed, every session is closed, no task is live, no connection is counted and every
permit is back. -/
structure LeavesNothing (config : ServerConfig) (s : TcpServer) : Prop where
  sessions : s.books.sessions = []
  closed : ∀ i t, s.tasks[i]? = some t → t.session ≠ none → s.SessionClosed i t
  tasks : s.liveTasks = 0
  count : s.books.connectionCount = 0
  permits : s.books.permits = config.maxConnections

/-- What is asked to be closed: all sessions in the snapshot of a `stop`, or a part of one by somebody else. -/
inductive CloseRequest where
  | stop (sessions : List Nat)
  | part (i : Nat) (part : ClosePart)
  deriving Repr, DecidableEq

def closeRequest (s : TcpServer) : ServerEvent → Option CloseRequest
  | .close i part => some (.part i part)
  | .control => if s.control = .snapshotting then some (.stop s.books.sessions) else none
  | _ => none

/-- The part of session `i` is asked to be closed. -/
def Asked (requests : List CloseRequest) (i : Nat) (part : ClosePart) : Prop :=
  .part i part ∈ requests ∨ ∃ sessions, .stop sessions ∈ requests ∧ i ∈ sessions

/-- Every session of which there is an `Arc` outside is one that a `stop` of the run found in the list, or that was
closed by somebody else. -/
def ClosesHeld (config : ServerConfig) (es : List ServerEvent) (s : TcpServer) : Prop :=
  ∀ i ∈ s.held, ∀ part, Asked (Steps.outputs (step config) closeRequest (withConfig config) es) i part

/-- `stop` aborts only tasks that leave no session without its last callback. -/
def abortsQuietly (s : TcpServer) : ServerEvent → Bool
  | .control =>
      match s.control with
      | .aborting (i :: _) => (s.tasks[i]?).all SessionTask.abortable
      | _ => true
  | _ => true

/-- The callbacks of every session are in order, and they are complete once its task has ended or `stop`
has returned; then the gauge is back to zero. -/
structure Bracketed (s : TcpServer) : Prop where
  order : ∀ t ∈ s.tasks, ∃ rest, ClosedLog (t.log ++ rest)
  ended : ∀ t ∈ s.tasks, t.live = false → t.Complete
  stopped : s.Stopped → ∀ t ∈ s.tasks, t.Complete
  gauge : s.Stopped → s.books.metrics.activeConnections = 0

end TcpServer

def ServerEvent.tearsDown : ServerEvent → Bool
  | .task _ .cancel | .task _ .panic | .task _ .overflow => true
  | _ => false

/-- A `receive` panics. -/
def ServerEvent.overflows : ServerEvent → Bool
  | .task _ .overflow => true
  | _ => false

/-- A callback panics. -/
def ServerEvent.panics : ServerEvent → Bool
  | .task _ .panic => true
  | _ => false

end NetworkSystem
