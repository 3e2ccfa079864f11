import NetworkSystem.Link.Lemmas.Ends

/-!
# A connection

A `TcpClient` that is connected and the session that the server has accepted for it: what the calls of one of them
put on the connection arrives at the other, and is read in pieces of any size. The calls of both ends interleave in
any order.
-/

namespace NetworkSystem

open TaskPool

abbrev Link := Duplex.Pair (Pool SharedClient StreamCall) (Pool Served ServerCall)

abbrev LinkEvent := Duplex.Event ClientEvent (TaskPool.Event SessionRequest SessionEvent)

namespace Link

def step (reply : Message → List Message) : Link → LinkEvent → Option Link :=
  Duplex.step clientEnd (serverEnd reply)

/-- The client has connected, and the server has accepted the connection. -/
def opened (clientTimeout now readTimeout writeTimeout idleTimeout : Nat) : Link where
  left := ⟨SharedClient.connected clientTimeout, []⟩
  right := Served.accept now readTimeout writeTimeout idleTimeout

def sends (l : Link) : List SendCall := l.left.tasks.filterMap StreamCall.sendCall

/-- The messages of the sends that have returned `Ok`. -/
def sentOk (l : Link) : List Message := (l.sends.filter (·.stage = .returned (.ok ()))).map SendCall.message

/-- What the client has put on the connection. -/
def requests (l : Link) : Bytes := l.left.shared.io.wire.written

/-- What the session has put on the connection. -/
def replies (l : Link) : Bytes := l.right.shared.session.io.wire.written

/-- The messages that the session has returned from `receive`. -/
def got (l : Link) : List Message := l.right.shared.got

/-- The messages that the calls of `receive` of the client have returned. -/
def received (l : Link) : List Message := l.left.shared.received

/-- What the session has in its buffer or has not read. -/
def pending (l : Link) : Bytes := l.right.shared.session.pending

/-- The client puts nothing behind a frame that was torn. -/
def ClientClean : Link → LinkEvent → Prop := Duplex.OnLeft ClientCleanWrite

/-- The session task is the only one that sends and receives, and it puts nothing behind a frame that was torn. -/
def ServesClean : Link → LinkEvent → Prop :=
  Duplex.OnRight fun p e => servesOnly e = true ∧ ServerCleanWrite p e

/-- Every `receive` of the client leaves nothing in its buffer. -/
def ReadsWhole : Link → LinkEvent → Prop := Duplex.OnLeft ClientReadsWhole

instance (l : Link) (e : LinkEvent) : Decidable (l.ClientClean e) :=
  inferInstanceAs (Decidable (Duplex.OnLeft ClientCleanWrite l e))

instance (l : Link) (e : LinkEvent) : Decidable (l.ServesClean e) :=
  inferInstanceAs (Decidable (Duplex.OnRight (fun p e => servesOnly e = true ∧ ServerCleanWrite p e) l e))

instance (l : Link) (e : LinkEvent) : Decidable (l.ReadsWhole e) :=
  inferInstanceAs (Decidable (Duplex.OnLeft ClientReadsWhole l e))

/-- What the session has returned, what it has in its buffer and what it has not read make up what the client has
put on the connection. The messages come in the order of their frames, each was passed to a send, and none whose send
returned `Ok` is lost. -/
structure Delivers (l : Link) : Prop where
  bytes : l.requests = encodeAll l.got ++ l.pending
  order : l.got <+: frames l.requests
  passed : (frames l.requests).Subperm (l.sends.map SendCall.message)
  kept : l.sentOk.Subperm (l.got ++ frames l.pending)

end Link

end NetworkSystem
