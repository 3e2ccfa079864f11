import NetworkSystem.Wire.Receive

/-!
# The session task

The task that `TcpServer::handle_connection` of `src/core/server.rs` spawns, and the callbacks of
`MonitoringSessionHandler` of `src/integration/monitor.rs`. The session that task `i` creates is session
`i`.

A task runs while it is polled, and gives the thread back only at an await. An aborted task is not polled
again: it is cancelled where it waits, and if it is being polled it first goes on to an await that makes it
wait. A callback that panics ends the task, and so does a `receive` that panics. How `receive` reads its messages is
in `Wire/Receive.lean`; here it returns a message or an error, or panics before its first read.
-/

namespace NetworkSystem

inductive Callback where
  | connected
  | message (m : Message)
  | disconnected
  deriving Repr, DecidableEq

structure Metrics where
  connectionsTotal : Nat := 0
  activeConnections : Int := 0
  messagesReceivedTotal : Nat := 0
  bytesReceivedTotal : Nat := 0
  deriving Repr, DecidableEq

/-- What a callback of `MonitoringSessionHandler` does before it calls the inner handler. -/
def Metrics.record (m : Metrics) : Callback → Metrics
  | .connected =>
      { m with connectionsTotal := m.connectionsTotal + 1, activeConnections := m.activeConnections + 1 }
  | .message msg =>
      { m with
        messagesReceivedTotal := m.messagesReceivedTotal + 1
        bytesReceivedTotal := m.bytesReceivedTotal + msg.size }
  | .disconnected => { m with activeConnections := m.activeConnections - 1 }

/-- What the session tasks and the accept loop share. The session list names each session by its task. -/
structure Books where
  permits : Nat
  connectionCount : Nat := 0
  sessions : List Nat := []
  metrics : Metrics := {}
  deriving Repr, DecidableEq

inductive HandleParam where
  | stream
  | peerAddr
  | handler
  | sessions
  | connectionCount
  | readTimeout
  | writeTimeout
  | idleTimeout
  | permit
  deriving Repr, DecidableEq

/-- The parameters that the body of the `async move` block mentions. The block owns these; the others are
dropped when `handle_connection` returns. -/
def capturedParams : List HandleParam :=
  [.stream, .peerAddr, .readTimeout, .writeTimeout, .idleTimeout, .sessions, .handler, .connectionCount]

def permitCaptured : Bool := decide (.permit ∈ capturedParams)

inductive TaskStage where
  /-- Spawned, and not polled yet. -/
  | spawned
  | created
  | listed
  | onConnected
  | looping
  /-- `receive` waits for its locks. -/
  | receiving
  /-- `receive` holds the read half. -/
  | reading
  | onMessage
  | broken
  | onDisconnected
  | delisting
  | uncounting
  | finished
  | cancelled
  | panicked
  deriving Repr, DecidableEq

namespace TaskStage

def ended : TaskStage → Bool
  | .finished | .cancelled | .panicked => true
  | _ => false

def awaits : TaskStage → Bool
  | .onConnected | .receiving | .reading | .onMessage | .onDisconnected => true
  | _ => false

def inCallback : TaskStage → Bool
  | .onConnected | .onMessage | .onDisconnected => true
  | _ => false

end TaskStage

structure SessionIo where
  active : Bool := true
  writeHalf : Bool := true
  readHalf : Bool := true
  deriving Repr, DecidableEq

/-- The statements of `Session::close` that take something from the session. -/
inductive ClosePart where
  | active
  | writeHalf
  | readHalf
  deriving Repr, DecidableEq

def SessionIo.close (s : SessionIo) : ClosePart → SessionIo
  | .active => { s with active := false }
  | .writeHalf => { s with writeHalf := false }
  | .readHalf => { s with readHalf := false }

structure SessionTask where
  stage : TaskStage := .spawned
  polled : Bool := false
  aborted : Bool := false
  session : Option SessionIo := none
  log : List Callback := []
  deriving Repr, DecidableEq

inductive TaskEvent where
  | poll
  | suspend
  /-- The next statement, or the return of the callback that runs. -/
  | go
  /-- `receive` returns a message, and `on_message` is called. -/
  | receive (m : Message)
  | receiveFailed
  /-- A callback panics. -/
  | panic
  /-- `receive` panics in `self.read_timeout * 3`, under its locks. -/
  | overflow
  | cancel
  deriving Repr, DecidableEq

namespace SessionTask

def live (t : SessionTask) : Bool := !t.stage.ended

/-- A callback is made: the metrics are updated and the inner handler runs. -/
def callback (b : Books) (t : SessionTask) (c : Callback) (stage : TaskStage) : Books × SessionTask :=
  ({ b with metrics := b.metrics.record c }, { t with stage := stage, log := t.log ++ [c] })

/-- The task ends, and drops what it owns. -/
def finish (b : Books) (t : SessionTask) (stage : TaskStage) : Books × SessionTask :=
  ({ b with permits := b.permits + permitCaptured.toNat }, { t with stage := stage, polled := false })

def go (readTimeout i : Nat) (b : Books) (t : SessionTask) : Option (Books × SessionTask) :=
  match t.stage with
  | .spawned => some (b, { t with stage := .created, session := some {} })
  | .created => some ({ b with sessions := b.sessions ++ [i] }, { t with stage := .listed })
  | .listed => some (t.callback b .connected .onConnected)
  | .onConnected | .onMessage => some (b, { t with stage := .looping })
  | .looping =>
      some (b, { t with stage := if t.session.any SessionIo.active then .receiving else .broken })
  | .receiving =>
      if t.session.any SessionIo.readHalf then
        if assemblyOverflows readTimeout then none else some (b, { t with stage := .reading })
      else some (b, { t with stage := .broken })
  | .broken => some (t.callback b .disconnected .onDisconnected)
  | .onDisconnected => some (b, { t with stage := .delisting })
  | .delisting => some ({ b with sessions := b.sessions.filter (· != i) }, { t with stage := .uncounting })
  | .uncounting => some (t.finish { b with connectionCount := b.connectionCount - 1 } .finished)
  | .reading | .finished | .cancelled | .panicked => none

/-- `read_timeout` is the parameter of `handle_connection`. -/
def step (readTimeout i : Nat) (b : Books) (t : SessionTask) : TaskEvent → Option (Books × SessionTask)
  | .poll => if t.live && !t.polled && !t.aborted then some (b, { t with polled := true }) else none
  | .suspend => if t.polled && t.stage.awaits then some (b, { t with polled := false }) else none
  | .go => if t.polled then t.go readTimeout i b else none
  | .receive m =>
      if t.polled && t.stage == .reading then some (t.callback b (.message m) .onMessage) else none
  | .receiveFailed =>
      if t.polled && (t.stage == .looping || t.stage == .reading) then
        some (b, { t with stage := .broken })
      else none
  | .panic => if t.polled && t.stage.inCallback then some (t.finish b .panicked) else none
  | .overflow =>
      if t.polled && t.stage == .receiving && t.session.any SessionIo.readHalf && assemblyOverflows readTimeout then
        some (t.finish b .panicked)
      else none
  | .cancel => if t.live && !t.polled && t.aborted then some (t.finish b .cancelled) else none

/-- A statement of `Session::close` on the session of the task; the read half is taken under its lock. -/
def close (t : SessionTask) (part : ClosePart) : Option SessionTask :=
  match t.session with
  | none => none
  | some s =>
      if part = .readHalf ∧ t.stage = .reading then none
      else some { t with session := some (s.close part) }

/-- `task.abort()` on a task that is not finished. -/
def abort (t : SessionTask) : SessionTask := if t.live then { t with aborted := true } else t

/-- An abort leaves no session without its last callback: the task has ended, it was never polled, or it
has called `on_disconnected`. -/
def abortable (t : SessionTask) : Bool :=
  !t.live || t.stage == .spawned && !t.polled || decide (.disconnected ∈ t.log)

end SessionTask

/-! ## The order of the callbacks -/

def OpenLog (log : List Callback) : Prop := ∃ ms : List Message, log = .connected :: ms.map .message

/-- `on_connected`, any number of `on_message`, `on_disconnected`. -/
def ClosedLog (log : List Callback) : Prop :=
  ∃ ms : List Message, log = .connected :: (ms.map .message ++ [.disconnected])

namespace SessionTask

/-- The task never created a session and made no callback, or all callbacks of its session were made. -/
def Complete (t : SessionTask) : Prop := (t.session = none ∧ t.log = []) ∨ ClosedLog t.log

end SessionTask

end NetworkSystem
