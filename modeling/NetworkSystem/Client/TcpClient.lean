import NetworkSystem.Lib.Steps
import NetworkSystem.Wire.Send

/-!
# Connecting and reconnecting

`connect`, `disconnect`, `reconnect`, `send_with_reconnect` and `receive_with_reconnect` of
`src/core/client.rs`. They take `&mut self`, so the calls of a client run one after another, and each event
is one call that has run to its end.

The parser of socket addresses is a parameter. What the network and the socket do is an input of the call.
-/

namespace NetworkSystem

open Steps

structure ClientConfig where
  readTimeout : Nat
  keepAlive : Option Nat
  autoReconnect : Bool
  maxReconnectAttempts : Nat
  deriving Repr, DecidableEq

/-- `stream` is `true` while its `Option` is `Some`. -/
structure Client where
  config : ClientConfig
  address : String
  state : ClientState
  stream : Bool
  deriving Repr, DecidableEq

/-- How `timeout(connect_timeout, TcpStream::connect(addr))` ends. -/
inductive Dial where
  | connected
  | timedOut
  | failed (err : String)
  deriving Repr, DecidableEq

/-- One connection attempt: the dial, and what the calls on the socket return. -/
structure Attempt where
  dial : Dial
  intoStd : Except String Unit
  setTcpKeepalive : Except String Unit
  setNonblocking : Except String Unit
  fromStd : Except String Unit
  deriving DecidableEq

/-- The attempts of one `reconnect` and the jitter after each, by the number of the attempt. -/
structure Attempts where
  net : Nat → Attempt
  jitter : Nat → Fin 100

inductive ReconnectAction where
  | attempt (result : Except NetworkError Unit)
  | sleep (ms : UInt64)
  deriving DecidableEq

structure Reconnected where
  result : Except NetworkError Unit
  client : Client
  actions : List ReconnectAction

def maxDelayMs : UInt64 := 30000

/-- A call of `receive` and the unread bytes of the connection that it meets. -/
structure Receiving where
  incoming : Bytes
  call : ReceiveCall

namespace Client

def withConfig (address : String) (config : ClientConfig) : Client where
  config := config
  address := address
  state := .disconnected
  stream := false

/-- The part of the client that `send` and `receive` use. -/
def connection (c : Client) : TcpClient := ⟨c.config.readTimeout, c.state, c.stream⟩

def setState (c : Client) (state : ClientState) : Client := { c with state := state }

/-- `send` as the only call on the connection; `none` while it still waits. -/
def send (c : Client) (message : Message) (events : List SendEvent) : Option (Except NetworkError Unit) :=
  (run (fun s e => TcpClient.sendStep s.1 s.2 e) (⟨c.connection, {}⟩, SendCall.start (.send, message))
    events).bind fun s =>
      match s.2.stage with
      | .returned result => some result
      | _ => none

def receive (c : Client) (r : Receiving) : Option (Except NetworkError Message) :=
  (c.connection.receive r.incoming r.call).1

/-- `Connection` and `InvalidState` count as a lost connection. -/
def isConnectionError : NetworkError → Bool
  | .connection _ | .invalidState _ => true
  | _ => false

section

variable {A : Type} (parse : String → Except String A)

/-! ## `connect_internal` -/

/-- The stretch of `connect_internal` that can fail, up to the stream that it stores. -/
def establish (c : Client) (net : Attempt) : Except NetworkError Unit := do
  let _addr ← (parse c.address).mapError fun e => .invalidAddress ("Invalid address: " ++ e)
  match net.dial with
  | .timedOut => throw (.timeout "Connection timed out")
  | .failed e => throw (.connection ("Failed to connect: " ++ e))
  | .connected =>
      if c.config.keepAlive.isSome then
        net.intoStd.mapError fun e => .other ("Failed to convert tokio stream to std: " ++ e)
        net.setTcpKeepalive.mapError fun e => .other ("Failed to set keep-alive: " ++ e)
        net.setNonblocking.mapError fun e =>
          .other ("Failed to restore nonblocking mode after keep-alive config: " ++ e)
        net.fromStd.mapError fun e => .other ("Failed to convert std socket back to tokio: " ++ e)

def connectInternal (c : Client) (isReconnect : Bool) (net : Attempt) : Except NetworkError Unit × Client :=
  if !isReconnect && (c.state == .connected || c.state == .connecting) then
    (.error (.invalidState "Client is already connected or connecting"), c)
  else
    let c := c.setState (if isReconnect then .reconnecting else .connecting)
    match c.establish parse net with
    | .error e => (.error e, c)
    | .ok () => (.ok (), { c with stream := true, state := .connected })

def connect (c : Client) (net : Attempt) : Except NetworkError Unit × Client :=
  c.connectInternal parse false net

/-! ## `reconnect` -/

/-- The loop of `reconnect` with `left` attempts to go. -/
def reconnectLoop (attempts : Attempts) (maxAttempts : Nat) : Nat → UInt64 → Client → Reconnected
  | 0, _, c => ⟨.error (.connection "Max reconnection attempts reached"), c.setState .disconnected, []⟩
  | left + 1, delayMs, c =>
      let attempt := maxAttempts - left
      match c.connectInternal parse true (attempts.net attempt) with
      | (.ok (), c) => ⟨.ok (), c, [.attempt (.ok ())]⟩
      | (.error e, c) =>
          if attempt ≥ maxAttempts then
            ⟨.error (.connection ("Failed to reconnect after " ++ toString maxAttempts ++ " attempts")),
              c.setState .disconnected, [.attempt (.error e)]⟩
          else
            let r := reconnectLoop attempts maxAttempts left (min (delayMs * 2) maxDelayMs) c
            { r with actions :=
                .attempt (.error e) :: .sleep (delayMs + .ofNat (attempts.jitter attempt)) :: r.actions }

def reconnect (c : Client) (attempts : Attempts) : Reconnected :=
  reconnectLoop parse attempts c.config.maxReconnectAttempts c.config.maxReconnectAttempts 100 c

/-! ## `send_with_reconnect` and `receive_with_reconnect` -/

/-- `first` is the call, and `retry` the same call made again after a reconnect. -/
def withReconnect {T : Type} (c : Client) (first : Client → Option (Except NetworkError T))
    (attempts : Attempts) (retry : Client → Option (Except NetworkError T)) :
    Option (Except NetworkError T × Client) :=
  match first c with
  | none => none
  | some (.ok value) => some (.ok value, c)
  | some (.error e) =>
      if c.config.autoReconnect && isConnectionError e then
        let r := c.reconnect parse attempts
        match r.result with
        | .error e => some (.error e, r.client)
        | .ok () => (retry r.client).map fun result => (result, r.client)
      else some (.error e, c)

def sendWithReconnect (c : Client) (message : Message) (first : List SendEvent) (attempts : Attempts)
    (retry : List SendEvent) : Option (Except NetworkError Unit × Client) :=
  c.withReconnect parse (fun c => c.send message first) attempts (fun c => c.send message retry)

def receiveWithReconnect (c : Client) (first : Receiving) (attempts : Attempts) (retry : Receiving) :
    Option (Except NetworkError Message × Client) :=
  c.withReconnect parse (fun c => c.receive first) attempts (fun c => c.receive retry)

/-- Closes the stream whatever its shutdown returns. No shutdown channel is ever set up. -/
def disconnect (c : Client) : Except NetworkError Unit × Client :=
  (.ok (), { c with stream := false, state := .disconnected })

end

end Client

/-! ## Runs of calls -/

inductive ClientCall where
  | connect (net : Attempt)
  | disconnect
  | reconnect (attempts : Attempts)
  | sendWithReconnect (message : Message) (first : List SendEvent) (attempts : Attempts)
      (retry : List SendEvent)
  | receiveWithReconnect (first : Receiving) (attempts : Attempts) (retry : Receiving)

namespace Client

variable {A : Type} (parse : String → Except String A)

/-- The client after the call; `none` when the call does not come to its end. -/
def callStep (c : Client) : ClientCall → Option Client
  | .connect net => some (c.connect parse net).2
  | .disconnect => some c.disconnect.2
  | .reconnect attempts => some (c.reconnect parse attempts).client
  | .sendWithReconnect message first attempts retry =>
      (c.sendWithReconnect parse message first attempts retry).map (·.2)
  | .receiveWithReconnect first attempts retry =>
      (c.receiveWithReconnect parse first attempts retry).map (·.2)

/-! ## The conditions on the calls -/

/-- `connect` is let past its check of the state. -/
def admitsConnect (c : Client) : Bool := c.state != .connected && c.state != .connecting

/-- No call of the client is under way: it is neither connecting nor reconnecting. -/
def settled (c : Client) : Bool := c.state != .connecting && c.state != .reconnecting

/-- The address parses, the dial connects and, with keep-alive configured, no call on the socket fails. -/
def reaches (c : Client) (net : Attempt) : Bool :=
  (parse c.address).isOk && net.dial == .connected &&
    (c.config.keepAlive.isNone ||
      net.intoStd.isOk && net.setTcpKeepalive.isOk && net.setNonblocking.isOk && net.fromStd.isOk)

/-- One of the attempts that `reconnect` is allowed reaches the server. -/
def reachesAgain (c : Client) (attempts : Attempts) : Bool :=
  (List.range c.config.maxReconnectAttempts).any fun i => c.reaches parse (attempts.net (i + 1))

/-- The call fails with an error that makes a client with `auto_reconnect` reconnect. -/
def loses {T : Type} (c : Client) (result : Option (Except NetworkError T)) : Bool :=
  c.config.autoReconnect &&
    match result with
    | some (.error e) => isConnectionError e
    | _ => false

/-- A `connect` that fails leaves the client disconnected, and the next `connect` is admitted. -/
def RetryableAfter (c : Client) (net : Attempt) : Prop :=
  ∀ e, (c.connect parse net).1 = .error e →
    (c.connect parse net).2.state = .disconnected ∧ (c.connect parse net).2.admitsConnect = true

/-- A `connect` that the client admits reaches the server. -/
def ConnectReaches (c : Client) : ClientCall → Prop
  | .connect net => c.admitsConnect = true → c.reaches parse net = true
  | _ => True

/-- The attempts of the reconnect that the call comes to. -/
def reconnects (c : Client) : ClientCall → Option Attempts
  | .connect _ | .disconnect => none
  | .reconnect attempts => some attempts
  | .sendWithReconnect message first attempts _ =>
      if c.loses (c.send message first) then some attempts else none
  | .receiveWithReconnect first attempts _ => if c.loses (c.receive first) then some attempts else none

/-- A reconnect that begins with a stream still held reaches the server. -/
def ReconnectReaches (c : Client) (e : ClientCall) : Prop :=
  ∀ attempts, c.reconnects e = some attempts → c.stream = true → c.reachesAgain parse attempts = true

/-- State and socket agree. -/
def Agrees (c : Client) : Prop := c.state = .connected ↔ c.stream = true

end Client

end NetworkSystem
