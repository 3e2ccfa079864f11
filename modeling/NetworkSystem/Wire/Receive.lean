import NetworkSystem.Wire.Message

/-!
# Receiving messages

The receive loops of `src/session/mod.rs` and `src/core/client.rs`. The bytes that the peer has sent and
that were not read yet are `incoming`; a read takes any number of bytes off its front. Times are clock
readings in nanoseconds.

A call is driven by the readings of the clock and by the outcome of each read. When the list of reads is
used up the call still waits for its next read; a caller may drop it there.
-/

namespace NetworkSystem

/-- How `timeout(read_timeout, read_buf(..))` ends: `ready n` takes the next `n` bytes (as many as there
are), and taking none is the end of the stream. A read that times out or fails takes nothing. -/
inductive ReadOutcome where
  | ready (n : Nat)
  | timedOut
  | failed (err : String)
  deriving Repr, DecidableEq

/-- A read, and `assembly_start.elapsed()` at the top of the loop after it. -/
structure Read where
  outcome : ReadOutcome
  elapsed : Nat
  deriving Repr, DecidableEq

/-- One call of `receive`: the clock at the idle check, the first `assembly_start.elapsed()`, the reads,
and the clock when the activity is updated. -/
structure ReceiveCall where
  started : Nat
  elapsed : Nat
  reads : List Read
  finished : Nat
  deriving Repr, DecidableEq

/-- The state in which a receive loop stops; `result` is `none` while the call waits for a read. -/
structure LoopEnd where
  result : Option (Except NetworkError Message)
  buf : Bytes
  incoming : Bytes

def maxBufferSize : Nat := maxMessageSize + 1024

/-- `Duration::MAX` in nanoseconds. -/
def durationMax : Nat := UInt64.size * 1000000000 - 1

/-- `read_timeout * 3` is no `Duration`, and the multiplication panics. -/
def assemblyOverflows (readTimeout : Nat) : Bool := decide (durationMax < readTimeout * 3)

/-- The loop of `Session::receive` and of `TcpClient::receive`. -/
def receiveLoop (assemblyTimeout elapsed : Nat) (reads : List Read) (buf incoming : Bytes) : LoopEnd :=
  if elapsed ≥ assemblyTimeout then
    ⟨some (.error (.timeout
      "Message assembly timeout: took too long to receive complete message")), buf, incoming⟩
  else
    match Message.decode buf with
    | (.error e, buf) => ⟨some (.error e), buf, incoming⟩
    | (.ok (some message), buf) => ⟨some (.ok message), buf, incoming⟩
    | (.ok none, buf) =>
        if buf.length ≥ maxBufferSize then
          ⟨some (.error (.connection
            "Malformed message: buffer exceeded maximum size without complete message")), buf, incoming⟩
        else
          match reads with
          | [] => ⟨none, buf, incoming⟩
          | ⟨.timedOut, _⟩ :: _ => ⟨some (.error (.timeout "Read timed out")), buf, incoming⟩
          | ⟨.failed e, _⟩ :: _ =>
              ⟨some (.error (.connection ("Failed to read: " ++ e))), buf, incoming⟩
          | ⟨.ready n, elapsed⟩ :: reads =>
              if incoming.take n = [] then
                ⟨some (.error (.connection "Connection closed by peer")), buf, incoming⟩
              else
                receiveLoop assemblyTimeout elapsed reads (buf ++ incoming.take n) (incoming.drop n)

/-! ## `Session::receive` -/

inductive SessionState where
  | active
  | closing
  | closed
  deriving Repr, DecidableEq

/-- What `send`, `receive` and `close` use of a session. A half is `true` while its `Option` is `Some`. -/
structure Session where
  readHalf : Bool
  writeHalf : Bool
  state : SessionState
  readTimeout : Nat
  writeTimeout : Nat
  idleTimeout : Nat
  lastActivity : Nat
  active : Bool
  readBuffer : Bytes
  deriving Repr, DecidableEq

namespace Session

def new (now readTimeout writeTimeout idleTimeout : Nat) : Session where
  readHalf := true
  writeHalf := true
  state := .active
  readTimeout := readTimeout
  writeTimeout := writeTimeout
  idleTimeout := idleTimeout
  lastActivity := now
  active := true
  readBuffer := []

/-- `is_idle` at time `now`; `Instant::elapsed` saturates at zero. -/
def isIdle (s : Session) (now : Nat) : Bool := now - s.lastActivity > s.idleTimeout

/-- `self.read_timeout * 3`, where the product is a `Duration`. -/
def assemblyTimeout (s : Session) : Nat := s.readTimeout * 3

def overflows (s : Session) : Bool := assemblyOverflows s.readTimeout

/-- `Session::receive`: the result, the session and the unread bytes after the call. There is no result while the
call waits for a read, and none when it panics, with its locks released and nothing read. -/
def receive (s : Session) (incoming : Bytes) (call : ReceiveCall) :
    Option (Except NetworkError Message) × Session × Bytes :=
  if !s.active then (some (.error (.invalidState "Session is not active")), s, incoming)
  else if s.isIdle call.started then
    (some (.error (.timeout "Session idle timeout exceeded")), s, incoming)
  else if !s.readHalf then
    (some (.error (.invalidState "Session read half is closed")), s, incoming)
  else if s.overflows then (none, s, incoming)
  else
    let r := receiveLoop s.assemblyTimeout call.elapsed call.reads s.readBuffer incoming
    match r.result with
    | some (.ok m) =>
        (some (.ok m), { s with readBuffer := r.buf, lastActivity := call.finished }, r.incoming)
    | res => (res, { s with readBuffer := r.buf }, r.incoming)

/-- The call gets as far as the multiplication, and panics there. -/
def receivePanics (s : Session) (call : ReceiveCall) : Bool :=
  s.active && !s.isIdle call.started && s.readHalf && s.overflows

end Session

/-! ## `TcpClient::receive` -/

inductive ClientState where
  | disconnected
  | connecting
  | connected
  | reconnecting
  deriving Repr, DecidableEq

/-- What `receive` uses of a `TcpClient`; `stream` is `true` while its `Option` is `Some`. -/
structure TcpClient where
  readTimeout : Nat
  state : ClientState
  stream : Bool
  deriving Repr, DecidableEq

namespace TcpClient

/-- `self.config.read_timeout * 3`, where the product is a `Duration`. -/
def assemblyTimeout (c : TcpClient) : Nat := c.readTimeout * 3

def overflows (c : TcpClient) : Bool := assemblyOverflows c.readTimeout

/-- `TcpClient::receive`: the result and the unread bytes after the call, which has no result while it waits for a
read, and none when it panics. The buffer is local to the call. -/
def receive (c : TcpClient) (incoming : Bytes) (call : ReceiveCall) :
    Option (Except NetworkError Message) × Bytes :=
  if c.state ≠ .connected then
    (some (.error (.invalidState "Client is not connected")), incoming)
  else if !c.stream then (some (.error (.invalidState "No active connection")), incoming)
  else if c.overflows then (none, incoming)
  else
    let r := receiveLoop c.assemblyTimeout call.elapsed call.reads [] incoming
    (r.result, r.incoming)

end TcpClient

/-! ## Runs of calls on one connection -/

def returnedBy : Option (Except NetworkError Message) → List Message
  | some (.ok m) => [m]
  | _ => []

/-- A session with its unread bytes and the messages that its calls have returned so far. -/
structure SessionConn where
  session : Session
  incoming : Bytes
  returned : List Message
  deriving Repr, DecidableEq

def SessionConn.accept (now readTimeout writeTimeout idleTimeout : Nat) (stream : Bytes) : SessionConn :=
  ⟨Session.new now readTimeout writeTimeout idleTimeout, stream, []⟩

def SessionConn.receive (c : SessionConn) (call : ReceiveCall) : SessionConn :=
  let r := c.session.receive c.incoming call
  ⟨r.2.1, r.2.2, c.returned ++ returnedBy r.1⟩

def SessionConn.receiveAll (c : SessionConn) (calls : List ReceiveCall) : SessionConn :=
  calls.foldl SessionConn.receive c

/-- A client with its unread bytes and the messages that its calls have returned so far. -/
structure ClientConn where
  client : TcpClient
  incoming : Bytes
  returned : List Message
  deriving Repr, DecidableEq

def ClientConn.connect (readTimeout : Nat) (stream : Bytes) : ClientConn :=
  ⟨⟨readTimeout, .connected, true⟩, stream, []⟩

def ClientConn.receive (c : ClientConn) (call : ReceiveCall) : ClientConn :=
  let r := c.client.receive c.incoming call
  ⟨c.client, r.2, c.returned ++ returnedBy r.1⟩

def ClientConn.receiveAll (c : ClientConn) (calls : List ReceiveCall) : ClientConn :=
  calls.foldl ClientConn.receive c

/-! ## Calls that stop at frame boundaries -/

/-- The reads of a call that starts at the front of a frame of `n` bytes and has `got` bytes of it add
up to exactly the frame, with the frame complete before the assembly timeout, or the call reads nothing.
No read goes past the end of the frame, and no call ends with a part of it. There are `avail` bytes left
to read. -/
def readsFrame (assemblyTimeout n avail elapsed : Nat) (reads : List Read) (got : Nat) : Bool :=
  if elapsed ≥ assemblyTimeout then got == 0
  else if got = n then true
  else
    match reads with
    | ⟨.ready k, elapsed⟩ :: reads =>
        if min k avail = 0 then got == 0
        else
          decide (got + min k avail ≤ n) &&
            readsFrame assemblyTimeout n (avail - min k avail) elapsed reads (got + min k avail)
    | _ => got == 0

/-- The length of the frame at the front of the unread bytes, `0` when there is none. -/
def nextFrameLength (incoming : Bytes) : Nat :=
  match splitFrame incoming with
  | some (m, _) => 4 + m.size
  | none => 0

def FrameAligned (c : ClientConn) : List ReceiveCall → Prop
  | [] => True
  | call :: calls =>
      (c.client.overflows ||
          readsFrame c.client.assemblyTimeout (nextFrameLength c.incoming) c.incoming.length call.elapsed
            call.reads 0) ∧
        FrameAligned (c.receive call) calls

instance FrameAligned.decidable : ∀ (c : ClientConn) (calls : List ReceiveCall),
    Decidable (FrameAligned c calls)
  | _, [] => inferInstanceAs (Decidable True)
  | c, call :: calls =>
      have := FrameAligned.decidable (c.receive call) calls
      inferInstanceAs (Decidable (_ ∧ _))

/-- No call of the run finds the session idle. -/
def NeverIdle (d : SessionConn) : List ReceiveCall → Prop
  | [] => True
  | call :: calls => d.session.isIdle call.started = false ∧ NeverIdle (d.receive call) calls

instance NeverIdle.decidable : ∀ (d : SessionConn) (calls : List ReceiveCall),
    Decidable (NeverIdle d calls)
  | _, [] => inferInstanceAs (Decidable True)
  | d, call :: calls =>
      have := NeverIdle.decidable (d.receive call) calls
      inferInstanceAs (Decidable (_ ∧ _))

end NetworkSystem
