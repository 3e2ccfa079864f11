import NetworkSystem.Session.SessionCalls

/-!
# Calls on one client connection

Any number of tasks call `send`, `try_send` and `receive` of one connected `TcpClient` of `src/core/client.rs`. The
sends are `TcpClient.sendStep` of `Wire/Send.lean`, and the loop of `receive` is `receiveLoop` of
`Wire/Receive.lean`, run from one read to the next.

One mutex guards the stream, and every call holds it from its `lock()` to its end. `receive` reads into a buffer of
its own, so bytes that are read and not returned are lost with the call.
-/

namespace NetworkSystem

open TaskPool

structure SharedClient where
  io : ClientWire
  incoming : Bytes := []
  /-- What the calls of `receive` have read off the connection. -/
  taken : Bytes := []
  /-- The messages that they have returned. -/
  received : List Message := []
  /-- A `receive` holds the stream. A send holds it while its frame is in flight. -/
  receiving : Bool := false
  deriving DecidableEq

namespace SharedClient

def client (s : SharedClient) : TcpClient := s.io.client

/-- The mutex of the stream is held. -/
def streamHeld (s : SharedClient) : Bool := s.receiving || s.io.wire.inFlight.isSome

end SharedClient

/-! ## `TcpClient::receive` -/

inductive ClientReceive where
  | entered
  /-- `stream.lock().await`. -/
  | locking
  /-- `read_buf` under its timeout, under the lock. -/
  | reading (buf : Bytes)
  | returned (result : Except NetworkError Message)
  | dropped
  /-- In `self.config.read_timeout * 3`. -/
  | panicked
  deriving DecidableEq

inductive ClientReceiveEvent where
  | check
  /-- The stream is locked; the first `assembly_start.elapsed()`. -/
  | lock (elapsed : Nat)
  | read (read : Read)
  | drop
  deriving Repr, DecidableEq

/-- The bytes that the read puts into the buffer. -/
def Read.takes (read : Read) (incoming : Bytes) : Bytes :=
  match read.outcome with
  | .ready n => incoming.take n
  | _ => []

namespace SharedClient

/-- The lock is released when `receive` returns, and the buffer goes with the call. -/
def afterLoop (s : SharedClient) (r : LoopEnd) : SharedClient × ClientReceive :=
  let s := { s with incoming := r.incoming }
  match r.result with
  | none => ({ s with receiving := true }, .reading r.buf)
  | some result =>
      ({ s with receiving := false, received := s.received ++ returnedBy (some result) }, .returned result)

def receiveStep (s : SharedClient) : ClientReceive → ClientReceiveEvent → Option (SharedClient × ClientReceive)
  | .entered, .check =>
      if s.client.state ≠ .connected then
        some (s, .returned (.error (.invalidState "Client is not connected")))
      else some (s, .locking)
  | .locking, .lock elapsed =>
      if s.streamHeld then none
      else if !s.client.stream then some (s, .returned (.error (.invalidState "No active connection")))
      else if s.client.overflows then some (s, .panicked)
      else some (s.afterLoop (receiveLoop s.client.assemblyTimeout elapsed [] [] s.incoming))
  | .locking, .drop => some (s, .dropped)
  | .reading buf, .read read =>
      some ({ s with taken := s.taken ++ read.takes s.incoming }.afterLoop
        (resumeLoop s.client.assemblyTimeout read buf s.incoming))
  | .reading _, .drop => some ({ s with receiving := false }, .dropped)
  | _, _ => none

end SharedClient

/-! ## All calls -/

inductive StreamRequest where
  | send (kind : SendKind) (message : Message)
  | receive
  deriving Repr, DecidableEq

inductive StreamCall where
  | send (call : SendCall)
  | receive (stage : ClientReceive)
  deriving DecidableEq

inductive StreamEvent where
  | send (e : SendEvent)
  | receive (e : ClientReceiveEvent)
  deriving Repr, DecidableEq

namespace StreamCall

def start : StreamRequest → StreamCall
  | .send kind m => .send (SendCall.start (kind, m))
  | .receive => .receive .entered

/-- A send takes its lock only while no `receive` holds it. -/
def act (s : SharedClient) : StreamCall → StreamEvent → Option (SharedClient × StreamCall)
  | .send call, .send e =>
      if e = .lock ∧ s.receiving = true then none
      else (TcpClient.sendStep s.io call e).map fun r => ({ s with io := r.1 }, .send r.2)
  | .receive stage, .receive e => (s.receiveStep stage e).map fun r => (r.1, .receive r.2)
  | _, _ => none

def sendCall : StreamCall → Option SendCall
  | .send call => some call
  | .receive _ => none

/-- The call has returned, has panicked, or was dropped. -/
def finished : StreamCall → Bool
  | .send ⟨_, _, .returned _⟩ | .send ⟨_, _, .dropped⟩ | .receive (.returned _) | .receive .dropped
  | .receive .panicked => true
  | _ => false

end StreamCall

def streamCalls : Program SharedClient StreamCall StreamRequest StreamEvent where
  start := StreamCall.start
  act := StreamCall.act

/-- A client that has just connected. -/
def SharedClient.connected (readTimeout : Nat) : SharedClient where
  io := ⟨⟨readTimeout, .connected, true⟩, {}⟩

/-! ## The client's end of a connection -/

inductive ClientEvent where
  | call (e : TaskPool.Event StreamRequest StreamEvent)
  /-- `disconnect`, which takes `&mut self`. -/
  | disconnect
  deriving Repr, DecidableEq

namespace SharedClient

def disconnect (s : SharedClient) : SharedClient :=
  { s with io := { s.io with client := { s.client with stream := false, state := .disconnected } } }

/-- Nothing is put on the connection behind a frame that was torn. -/
def CleanWrite (s : SharedClient) : StreamEvent → Prop
  | .send e => e.writes = true → s.io.wire.torn = false
  | .receive _ => True

instance (s : SharedClient) : (e : StreamEvent) → Decidable (s.CleanWrite e)
  | .send e => inferInstanceAs (Decidable (e.writes = true → s.io.wire.torn = false))
  | .receive _ => inferInstanceAs (Decidable True)

end SharedClient

/-- One step of the client: no call is under way when it disconnects. -/
def clientStep (p : Pool SharedClient StreamCall) : ClientEvent → Option (Pool SharedClient StreamCall)
  | .call e => streamCalls.step p e
  | .disconnect => if p.tasks.all StreamCall.finished then some { p with shared := p.shared.disconnect } else none

def ClientCleanWrite (p : Pool SharedClient StreamCall) : ClientEvent → Prop
  | .call (.act _ e) => p.shared.CleanWrite e
  | _ => True

instance (p : Pool SharedClient StreamCall) : (e : ClientEvent) → Decidable (ClientCleanWrite p e)
  | .call (.act _ e) => inferInstanceAs (Decidable (p.shared.CleanWrite e))
  | .call (.spawn _) | .disconnect => inferInstanceAs (Decidable True)

/-- A `receive` that ends leaves nothing in its buffer: it reads no further than its frame, and it does not fail and
is not dropped with a part of it. -/
def SharedClient.ReadsWhole (s : SharedClient) : StreamCall → StreamEvent → Prop
  | .receive (.reading buf), .receive (.read read) =>
      let r := resumeLoop s.client.assemblyTimeout read buf s.incoming
      r.result = none ∨ r.buf = []
  | .receive (.reading buf), .receive .drop => buf = []
  | _, _ => True

instance (s : SharedClient) : (c : StreamCall) → (e : StreamEvent) → Decidable (s.ReadsWhole c e)
  | .receive (.reading buf), .receive (.read read) =>
      inferInstanceAs (Decidable ((resumeLoop s.client.assemblyTimeout read buf s.incoming).result = none ∨
        (resumeLoop s.client.assemblyTimeout read buf s.incoming).buf = []))
  | .receive (.reading buf), .receive .drop => inferInstanceAs (Decidable (buf = []))
  | .receive (.reading _), .receive .check | .receive (.reading _), .receive (.lock _)
  | .receive (.reading _), .send _ | .receive .entered, _ | .receive .locking, _ | .receive (.returned _), _
  | .receive .dropped, _ | .receive .panicked, _ | .send _, _ => inferInstanceAs (Decidable True)

def ClientReadsWhole (p : Pool SharedClient StreamCall) : ClientEvent → Prop
  | .call (.act i e) => ∀ c ∈ p.tasks[i]?, p.shared.ReadsWhole c e
  | _ => True

instance (p : Pool SharedClient StreamCall) : (e : ClientEvent) → Decidable (ClientReadsWhole p e)
  | .call (.act i e) => inferInstanceAs (Decidable (∀ c ∈ p.tasks[i]?, p.shared.ReadsWhole c e))
  | .call (.spawn _) | .disconnect => inferInstanceAs (Decidable True)

end NetworkSystem
