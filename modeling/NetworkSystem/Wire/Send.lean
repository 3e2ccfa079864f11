import NetworkSystem.Lib.FrameWriter
import NetworkSystem.Lib.TaskPool
import NetworkSystem.Wire.Lemmas.Codec
import NetworkSystem.Wire.Receive

/-!
# Sending messages

`Session::send` of `src/session/mod.rs` and `TcpClient::send` / `try_send` of `src/core/client.rs`, as
calls of many tasks on one connection. Between two awaits a call runs in one step; the mutex around the
stream is held from `lock()` to the end of the call, so at most one frame is in flight and its call holds
the mutex.

A write puts the bytes of the frame on the connection in pieces of any size. It ends when all of them are
out; before that it can time out or fail, and the caller can drop the call at any await.
-/

namespace NetworkSystem

open FrameWriter TaskPool

/-- The bytes that were put on the connection, with the frame in flight. -/
abbrev Wire := FrameWriter.Writer Message UInt8

inductive SendStage where
  | entered
  /-- `lock().await`; `data` is the encoded message. -/
  | locking (data : Bytes)
  /-- `stream.writable()` of `TcpClient::send`, under the lock. -/
  | waiting
  /-- `stream.try_write(&data)` of `TcpClient::try_send`, under the lock. -/
  | trying
  /-- `write_all` under its timeout, under the lock. -/
  | writing
  | returned (result : Except NetworkError Unit)
  | dropped
  deriving DecidableEq

inductive SendKind where
  | send
  | trySend
  deriving Repr, DecidableEq

structure SendCall where
  kind : SendKind
  message : Message
  stage : SendStage
  deriving DecidableEq

inductive SendEvent where
  /-- The checks before the lock, at time `now`. -/
  | check (now : Nat)
  | lock
  | writable
  | notWritable (err : Option String)
  | tryWrite (n : Nat)
  | wouldBlock
  | tryFailed (err : String)
  | put (k : Nat)
  /-- `write_all` returns; `now` is the clock when the activity is updated. -/
  | done (now : Nat)
  | timedOut
  | failed (err : String)
  | drop
  deriving Repr, DecidableEq

namespace SendCall

def start (k : SendKind × Message) : SendCall := ⟨k.1, k.2, .entered⟩

def advance (c : SendCall) (stage : SendStage) : SendCall := { c with stage := stage }

def fail (c : SendCall) (e : NetworkError) : SendCall := c.advance (.returned (.error e))

end SendCall

structure WriteTexts where
  timedOut : String
  failed : String

/-- `timeout(write_timeout, write_all(..))` while it is under way. A write whose bytes are all out
returns. -/
def writeAll (texts : WriteTexts) (w : Wire) (c : SendCall) : SendEvent → Option (Wire × SendCall)
  | .put k => (w.put k).map fun w => (w, c)
  | .done _ => w.finish.map fun w => (w, c.advance (.returned (.ok ())))
  | .timedOut => w.abandon.map fun w => (w, c.fail (.timeout texts.timedOut))
  | .failed err => w.abandon.map fun w => (w, c.fail (.connection (texts.failed ++ err)))
  | .drop => w.abandon.map fun w => (w, c.advance .dropped)
  | _ => none

def lockAndBegin (w : Wire) (c : SendCall) (data : Bytes) (next : SendStage) :
    Option (Wire × SendCall) :=
  (w.begin c.message data).map fun w => (w, c.advance next)

/-! ## `Session::send` -/

structure SessionWire where
  session : Session
  wire : Wire
  deriving DecidableEq

/-- `"Write timed out"` and `"Failed to write: {}"`. -/
def sendTexts : WriteTexts := ⟨"Write timed out", "Failed to write: "⟩

def Session.sendStep (s : SessionWire) (c : SendCall) (e : SendEvent) : Option (SessionWire × SendCall) :=
  match c.stage with
  | .entered =>
      match e with
      | .check now =>
          if !s.session.active then some (s, c.fail (.invalidState "Session is not active"))
          else if s.session.isIdle now then some (s, c.fail (.timeout "Session idle timeout exceeded"))
          else
            match c.message.encode with
            | .error err => some (s, c.fail err)
            | .ok data => some (s, c.advance (.locking data))
      | _ => none
  | .locking data =>
      match e with
      | .lock =>
          if s.wire.inFlight.isSome then none
          else if !s.session.writeHalf then
            some (s, c.fail (.invalidState "Session write half is closed"))
          else (lockAndBegin s.wire c data .writing).map fun r => ({ s with wire := r.1 }, r.2)
      | .drop => some (s, c.advance .dropped)
      | _ => none
  | .writing =>
      (writeAll sendTexts s.wire c e).map fun r =>
        match e with
        -- `update_activity` after a successful write
        | .done now => ({ s with session := { s.session with lastActivity := now }, wire := r.1 }, r.2)
        | _ => ({ s with wire := r.1 }, r.2)
  | .waiting | .trying | .returned _ | .dropped => none

def sessionSends : Program SessionWire SendCall Message SendEvent where
  start m := SendCall.start (.send, m)
  act := Session.sendStep

/-! ## `TcpClient::send` and `TcpClient::try_send` -/

structure ClientWire where
  client : TcpClient
  wire : Wire
  deriving DecidableEq

/-- The checks before the lock, the same in `send` and `try_send`. -/
def TcpClient.sendCheck (s : ClientWire) (c : SendCall) : ClientWire × SendCall :=
  if s.client.state ≠ .connected then (s, c.fail (.invalidState "Client is not connected"))
  else
    match c.message.encode with
    | .error err => (s, c.fail err)
    | .ok data => (s, c.advance (.locking data))

/-- The texts of the write in `send`, and of the write of the remainder in `try_send`. -/
def SendKind.texts : SendKind → WriteTexts
  | .send => sendTexts
  | .trySend => ⟨"Write timed out after partial write", "Failed to complete write: "⟩

/-- `timeout(write_timeout, stream.writable())` of `send`. -/
def TcpClient.waitWritable (w : Wire) (c : SendCall) : SendEvent → Option (Wire × SendCall)
  | .writable => some (w, c.advance .writing)
  | .notWritable none =>
      w.abandon.map fun w => (w, c.fail (.timeout "Socket not ready for writing (backpressure)"))
  | .notWritable (some err) =>
      w.abandon.map fun w => (w, c.fail (.connection ("Failed to check writability: " ++ err)))
  | .drop => w.abandon.map fun w => (w, c.advance .dropped)
  | _ => none

/-- `stream.try_write(&data)` of `try_send`, which does not wait. What it leaves of the frame is written
by `write_all`; nothing is left when it took the whole frame. -/
def TcpClient.tryWrite (w : Wire) (c : SendCall) : SendEvent → Option (Wire × SendCall)
  | .tryWrite 0 => some (w, c.advance .writing)
  | .tryWrite n => (w.put n).map fun w => (w, c.advance .writing)
  | .wouldBlock =>
      w.abandon.map fun w =>
        (w, c.fail (.other "Backpressure: send buffer full, cannot write without blocking"))
  | .tryFailed err => w.abandon.map fun w => (w, c.fail (.connection ("Failed to write: " ++ err)))
  | _ => none

def TcpClient.sendStep (s : ClientWire) (c : SendCall) (e : SendEvent) : Option (ClientWire × SendCall) :=
  match c.stage with
  | .entered =>
      match e with
      | .check _ => some (TcpClient.sendCheck s c)
      | _ => none
  | .locking data =>
      match e with
      | .lock =>
          if s.wire.inFlight.isSome then none
          else if !s.client.stream then some (s, c.fail (.invalidState "No active connection"))
          else
            let next := match c.kind with | .send => .waiting | .trySend => .trying
            (lockAndBegin s.wire c data next).map fun r => ({ s with wire := r.1 }, r.2)
      | .drop => some (s, c.advance .dropped)
      | _ => none
  | .waiting => (TcpClient.waitWritable s.wire c e).map fun r => ({ s with wire := r.1 }, r.2)
  | .trying => (TcpClient.tryWrite s.wire c e).map fun r => ({ s with wire := r.1 }, r.2)
  | .writing => (writeAll c.kind.texts s.wire c e).map fun r => ({ s with wire := r.1 }, r.2)
  | .returned _ | .dropped => none

/-- Calls of `send` and `try_send` on one client connection, by any number of tasks. -/
def clientSends : Program ClientWire SendCall (SendKind × Message) SendEvent where
  start := SendCall.start
  act := TcpClient.sendStep

/-! ## The condition on the writes -/

def SendEvent.writes : SendEvent → Bool
  | .put _ => true
  | .tryWrite n => n != 0
  | _ => false

/-- No byte is put on the connection behind a frame that was torn. -/
def NothingBehindTorn {σ κ : Type} (wire : σ → Wire) (p : Pool σ SendCall) :
    TaskPool.Event κ SendEvent → Prop
  | .act _ e => e.writes = true → (wire p.shared).torn = false
  | .spawn _ => True

instance {σ κ : Type} (wire : σ → Wire) (p : Pool σ SendCall) :
    (e : TaskPool.Event κ SendEvent) → Decidable (NothingBehindTorn wire p e)
  | .act _ e => inferInstanceAs (Decidable (e.writes = true → (wire p.shared).torn = false))
  | .spawn _ => inferInstanceAs (Decidable True)

/-- The frames on the connection are intact. The bytes are a prefix of whole frames of messages that were
passed to the calls. The frame parser of the peer gets every message whose call returned `Ok`, and only
messages that were passed to a call; a message that was passed once it gets at most once. -/
structure FramesIntact (w : Wire) (calls : List SendCall) : Prop where
  whole : ∃ ms, ms.Subperm (calls.map SendCall.message) ∧ (∀ m ∈ ms, m.size ≤ maxMessageSize) ∧
    w.written <+: encodeAll ms
  sent : ((calls.filter (·.stage = .returned (.ok ()))).map SendCall.message).Subperm (frames w.written)
  received : (frames w.written).Subperm (calls.map SendCall.message)

end NetworkSystem
