import NetworkSystem.Wire.Send

/-!
# Calls on one session

Any number of tasks call `send`, `receive`, `close` and `set_inactive` of one `Session` of
`src/session/mod.rs`. Between two awaits a call runs in one step, but each access to the state, the active
flag or a mutex is a step of its own. `send` is `Session.sendStep` of `Wire/Send.lean`, and the loop of
`receive` is `receiveLoop` of `Wire/Receive.lean`, run from one read to the next.

A mutex is held from its `lock()` to the end of the call, or of the statement in `close` that takes it.
-/

namespace NetworkSystem

open TaskPool

structure SharedSession where
  io : SessionWire
  incoming : Bytes
  /-- A `close` holds the write half. A `send` holds it while its frame is in flight. -/
  writeLocked : Bool := false
  bufferLocked : Bool := false
  readLocked : Bool := false
  deriving DecidableEq

namespace SharedSession

def session (s : SharedSession) : Session := s.io.session

def update (s : SharedSession) (session : Session) : SharedSession :=
  { s with io := { s.io with session := session } }

/-- The mutex of the write half is held. -/
def writeHeld (s : SharedSession) : Bool := s.writeLocked || s.io.wire.inFlight.isSome

end SharedSession

/-! ## `Session::receive` -/

inductive ReceiveStage where
  | entered
  /-- `read_buffer.lock().await`. -/
  | lockingBuffer
  /-- `read_half.lock().await`, under the lock of the buffer. -/
  | lockingRead
  /-- `read_buf` under its timeout, under both locks. -/
  | reading
  | returned (result : Except NetworkError Message)
  | dropped
  /-- In `self.read_timeout * 3`. -/
  | panicked
  deriving DecidableEq

inductive ReceiveEvent where
  /-- The checks before the locks, at time `now`. -/
  | check (now : Nat)
  | lockBuffer
  /-- The read half is locked; the first `assembly_start.elapsed()`, and the clock when the activity is
  updated. -/
  | lockRead (elapsed finished : Nat)
  | read (read : Read) (finished : Nat)
  | drop
  deriving Repr, DecidableEq

/-- The receive loop from the end of a read to the next one. -/
def resumeLoop (assemblyTimeout : Nat) (read : Read) (buf incoming : Bytes) : LoopEnd :=
  match read.outcome with
  | .timedOut => ⟨some (.error (.timeout "Read timed out")), buf, incoming⟩
  | .failed e => ⟨some (.error (.connection ("Failed to read: " ++ e))), buf, incoming⟩
  | .ready n =>
      if incoming.take n = [] then
        ⟨some (.error (.connection "Connection closed by peer")), buf, incoming⟩
      else receiveLoop assemblyTimeout read.elapsed [] (buf ++ incoming.take n) (incoming.drop n)

namespace SharedSession

/-- The locks are released when `receive` returns, and the activity is updated with a message. -/
def afterLoop (s : SharedSession) (finished : Nat) (r : LoopEnd) : SharedSession × ReceiveStage :=
  let s := { s.update { s.session with readBuffer := r.buf } with incoming := r.incoming }
  let unlocked := { s with bufferLocked := false, readLocked := false }
  match r.result with
  | none => (s, .reading)
  | some (.ok m) => (unlocked.update { unlocked.session with lastActivity := finished }, .returned (.ok m))
  | some (.error e) => (unlocked, .returned (.error e))

def receiveStep (s : SharedSession) : ReceiveStage → ReceiveEvent → Option (SharedSession × ReceiveStage)
  | .entered, .check now =>
      if !s.session.active then some (s, .returned (.error (.invalidState "Session is not active")))
      else if s.session.isIdle now then
        some (s, .returned (.error (.timeout "Session idle timeout exceeded")))
      else some (s, .lockingBuffer)
  | .lockingBuffer, .lockBuffer =>
      if s.bufferLocked then none else some ({ s with bufferLocked := true }, .lockingRead)
  | .lockingBuffer, .drop => some (s, .dropped)
  | .lockingRead, .lockRead elapsed finished =>
      if s.readLocked then none
      else if !s.session.readHalf then
        some ({ s with bufferLocked := false },
          .returned (.error (.invalidState "Session read half is closed")))
      else if s.session.overflows then some ({ s with bufferLocked := false }, .panicked)
      else
        some ({ s with readLocked := true }.afterLoop finished
          (receiveLoop s.session.assemblyTimeout elapsed [] s.session.readBuffer s.incoming))
  | .lockingRead, .drop => some ({ s with bufferLocked := false }, .dropped)
  | .reading, .read read finished =>
      some (s.afterLoop finished
        (resumeLoop s.session.assemblyTimeout read s.session.readBuffer s.incoming))
  | .reading, .drop => some ({ s with bufferLocked := false, readLocked := false }, .dropped)
  | _, _ => none

end SharedSession

/-! ## `Session::close` -/

inductive CloseStage where
  | entered
  | deactivating
  /-- `write_half.lock().await`. -/
  | lockingWrite
  /-- `write_half.shutdown().await`, under the lock. -/
  | shuttingDown
  /-- `read_half.lock().await`. -/
  | lockingRead
  | finishing
  | returned
  | dropped
  deriving Repr, DecidableEq

inductive CloseEvent where
  | next
  | drop
  deriving Repr, DecidableEq

namespace SharedSession

def closeStep (s : SharedSession) : CloseStage → CloseEvent → Option (SharedSession × CloseStage)
  | .entered, .next => some (s.update { s.session with state := .closing }, .deactivating)
  | .deactivating, .next => some (s.update { s.session with active := false }, .lockingWrite)
  | .lockingWrite, .next =>
      if s.writeHeld then none
      else if s.session.writeHalf then
        some ({ s.update { s.session with writeHalf := false } with writeLocked := true }, .shuttingDown)
      else some (s, .lockingRead)
  | .lockingWrite, .drop => some (s, .dropped)
  | .shuttingDown, .next => some ({ s with writeLocked := false }, .lockingRead)
  | .shuttingDown, .drop => some ({ s with writeLocked := false }, .dropped)
  | .lockingRead, .next =>
      if s.readLocked then none
      else some (s.update { s.session with readHalf := false }, .finishing)
  | .lockingRead, .drop => some (s, .dropped)
  | .finishing, .next => some (s.update { s.session with state := .closed }, .returned)
  | _, _ => none

end SharedSession

/-! ## All calls -/

inductive SessionRequest where
  | send (message : Message)
  | receive
  | close
  | setInactive
  deriving Repr, DecidableEq

inductive SessionCall where
  | send (call : SendCall)
  | receive (stage : ReceiveStage)
  | close (stage : CloseStage)
  | setInactive (done : Bool)
  deriving DecidableEq

inductive SessionEvent where
  | send (e : SendEvent)
  | receive (e : ReceiveEvent)
  | close (e : CloseEvent)
  | setInactive
  deriving Repr, DecidableEq

namespace SessionCall

def start : SessionRequest → SessionCall
  | .send m => .send (SendCall.start (.send, m))
  | .receive => .receive .entered
  | .close => .close .entered
  | .setInactive => .setInactive false

/-- `send` takes its lock only while no `close` holds it. -/
def act (s : SharedSession) : SessionCall → SessionEvent → Option (SharedSession × SessionCall)
  | .send call, .send e =>
      if e = .lock ∧ s.writeLocked = true then none
      else (Session.sendStep s.io call e).map fun r => ({ s with io := r.1 }, .send r.2)
  | .receive stage, .receive e => (s.receiveStep stage e).map fun r => (r.1, .receive r.2)
  | .close stage, .close e => (s.closeStep stage e).map fun r => (r.1, .close r.2)
  | .setInactive false, .setInactive =>
      some (s.update { s.session with active := false }, .setInactive true)
  | _, _ => none

/-- The call is a `send` or a `receive` that has returned `Ok`. -/
def completedOk : SessionCall → Bool
  | .send call => decide (call.stage = .returned (.ok ()))
  | .receive (.returned (.ok _)) => true
  | _ => false

end SessionCall

def sessionCalls : Program SharedSession SessionCall SessionRequest SessionEvent where
  start := SessionCall.start
  act := SessionCall.act

/-- A new session, with the bytes that its peer will send. -/
def SharedSession.new (now readTimeout writeTimeout idleTimeout : Nat) (incoming : Bytes) :
    Pool SharedSession SessionCall :=
  ⟨{ io := ⟨Session.new now readTimeout writeTimeout idleTimeout, {}⟩, incoming := incoming }, []⟩

end NetworkSystem
