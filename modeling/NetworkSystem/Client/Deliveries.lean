import NetworkSystem.Client.TcpClient

/-!
# The connections of a client

A client with what it has put on its connection and on those before it. `connect_internal` stores a new stream and
drops the one that it held; a send goes on where the last one on the connection stopped. The calls run one after
another, and a send can be dropped by its caller at any await.
-/

namespace NetworkSystem

open FrameWriter Steps

/-- `past` are the connections that are given up, the oldest first, and `sent` the messages of the calls that
returned `Ok`. -/
structure ClientConnections where
  client : Client
  wire : Wire := {}
  past : List Wire := []
  sent : List Message := []

inductive ConnectionCall where
  | call (call : ClientCall)
  /-- `send` or `try_send`. -/
  | send (kind : SendKind) (message : Message) (events : List SendEvent)

/-- How a call of `send` came to its end; the inner `none` when it was dropped. -/
def SendStage.ended : SendStage → Option (Option (Except NetworkError Unit))
  | .returned result => some (some result)
  | .dropped => some none
  | _ => none

def ConnectionCall.message : ConnectionCall → Option Message
  | .call (.sendWithReconnect message _ _ _) => some message
  | .send _ message _ => some message
  | _ => none

namespace ClientConnections

def withConfig (address : String) (config : ClientConfig) : ClientConnections where
  client := .withConfig address config

/-- All connections, in the order in which they were made. -/
def wires (x : ClientConnections) : List Wire := x.past ++ [x.wire]

/-- The frames that the bytes put on the connections hold, connection by connection. -/
def received (x : ClientConnections) : List Message := x.wires.flatMap fun w => frames w.written

def withStream (x : ClientConnections) (c : Client) : ClientConnections :=
  { x with client := c, wire := {}, past := x.past ++ [x.wire] }

def record (x : ClientConnections) (message : Message) (result : Option (Except NetworkError Unit)) :
    ClientConnections :=
  match result with
  | some (.ok ()) => { x with sent := x.sent ++ [message] }
  | _ => x

/-- `none` while the call still waits. -/
def send (x : ClientConnections) (kind : SendKind) (message : Message) (events : List SendEvent) :
    Option (Option (Except NetworkError Unit) × ClientConnections) :=
  (run (fun s e => TcpClient.sendStep s.1 s.2 e) (⟨x.client.connection, x.wire⟩, SendCall.start (kind, message))
    events).bind fun s => s.2.stage.ended.map fun result => (result, { x with wire := s.1.wire })

section

variable {A : Type} (parse : String → Except String A)

def connect (x : ClientConnections) (net : Attempt) : ClientConnections :=
  match x.client.connect parse net with
  | (.ok (), c) => x.withStream c
  | (.error _, c) => { x with client := c }

def reconnect (x : ClientConnections) (attempts : Attempts) : Except NetworkError Unit × ClientConnections :=
  let r := x.client.reconnect parse attempts
  match r.result with
  | .ok () => (.ok (), x.withStream r.client)
  | .error e => (.error e, { x with client := r.client })

def sendWithReconnect (x : ClientConnections) (message : Message) (first : List SendEvent) (attempts : Attempts)
    (retry : List SendEvent) : Option (Option (Except NetworkError Unit) × ClientConnections) :=
  match x.send .send message first with
  | some (some (.error e), x) =>
      if x.client.config.autoReconnect && Client.isConnectionError e then
        match x.reconnect parse attempts with
        | (.error e, x) => some (some (.error e), x)
        | (.ok (), x) => x.send .send message retry
      else some (some (.error e), x)
  | ended => ended

def receiveWithReconnect (x : ClientConnections) (first : Receiving) (attempts : Attempts) (retry : Receiving) :
    Option (Except NetworkError Message × ClientConnections) :=
  match x.client.receive first with
  | none => none
  | some (.ok message) => some (.ok message, x)
  | some (.error e) =>
      if x.client.config.autoReconnect && Client.isConnectionError e then
        match x.reconnect parse attempts with
        | (.error e, x) => some (.error e, x)
        | (.ok (), x) => (x.client.receive retry).map fun result => (result, x)
      else some (.error e, x)

/-- `none` when the call does not come to its end. -/
def step (x : ClientConnections) : ConnectionCall → Option ClientConnections
  | .call (.connect net) => some (x.connect parse net)
  | .call .disconnect => some { x with client := x.client.disconnect.2 }
  | .call (.reconnect attempts) => some (x.reconnect parse attempts).2
  | .call (.sendWithReconnect message first attempts retry) =>
      (x.sendWithReconnect parse message first attempts retry).map fun r => r.2.record message r.1
  | .call (.receiveWithReconnect first attempts retry) =>
      (x.receiveWithReconnect parse first attempts retry).map (·.2)
  | .send kind message events => (x.send kind message events).map fun r => r.2.record message r.1

end

/-- No send writes behind a frame that was torn. -/
def CleanCall (x : ClientConnections) : ConnectionCall → Prop
  | .call (.sendWithReconnect _ events _ _) | .send _ _ events =>
      x.wire.torn = true → ∀ e ∈ events, e.writes = false
  | _ => True

instance (x : ClientConnections) : (e : ConnectionCall) → Decidable (x.CleanCall e)
  | .call (.sendWithReconnect _ events _ _) | .send _ _ events =>
      inferInstanceAs (Decidable (x.wire.torn = true → ∀ e ∈ events, e.writes = false))
  | .call (.connect _) | .call .disconnect | .call (.reconnect _) | .call (.receiveWithReconnect ..) =>
      inferInstanceAs (Decidable True)

end ClientConnections

end NetworkSystem
