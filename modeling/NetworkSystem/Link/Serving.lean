import NetworkSystem.Session.SessionCalls

/-!
# Serving a session

The loop of a session task of `src/core/server.rs` with the handler of the echo servers under `examples/`:
`receive`, then `on_message`, which sends its replies one after another and goes on when one of them cannot be sent.
A reply is any function of the message; `EchoHandler` replies with the message itself.

Other tasks call `send`, `receive`, `close` and `set_inactive` of the session meanwhile: the cleanup task, `stop` and
`broadcast` do.
-/

namespace NetworkSystem

open TaskPool

/-- A session, and the messages that its calls of `receive` have returned. -/
structure Served where
  session : SharedSession
  got : List Message := []
  deriving DecidableEq

inductive ServerCall where
  | call (c : SessionCall)
  /-- The loop of a session task: the call that it awaits, and the replies to send after that. -/
  | serve (awaited : SessionCall) (todo : List Message)
  /-- The loop is left, as `receive` failed. -/
  | served
  deriving DecidableEq

/-- The message that a call of `receive` has just returned. -/
def SessionCall.got : SessionCall → List Message
  | .receive (.returned result) => returnedBy (some result)
  | _ => []

namespace ServerCall

/-- The next call of the loop: of `send` while there are replies, then of `receive`. -/
def next : List Message → ServerCall
  | [] => .serve (SessionCall.start .receive) []
  | m :: todo => .serve (SessionCall.start (.send m)) todo

/-- The loop after a step of the call that it awaits. A call that was dropped or has panicked ends it where it is. -/
def resume (reply : Message → List Message) (todo : List Message) : SessionCall → ServerCall
  | .receive (.returned (.ok m)) => next (reply m)
  | .receive (.returned (.error _)) => .served
  | .send ⟨kind, m, stage⟩ =>
      match stage with
      | .returned _ => next todo
      | stage => .serve (.send ⟨kind, m, stage⟩) todo
  | c => .serve c todo

def act (reply : Message → List Message) (s : Served) : ServerCall → SessionEvent → Option (Served × ServerCall)
  | .call c, e => (c.act s.session e).map fun r => (⟨r.1, s.got ++ r.2.got⟩, .call r.2)
  | .serve c todo, e => (c.act s.session e).map fun r => (⟨r.1, s.got ++ r.2.got⟩, resume reply todo r.2)
  | .served, _ => none

end ServerCall

def serverCalls (reply : Message → List Message) : Program Served ServerCall SessionRequest SessionEvent where
  start k := .call (SessionCall.start k)
  act := ServerCall.act reply

/-- A connection is accepted, and its session task enters the loop. -/
def Served.accept (now : Nat) (readTimeout writeTimeout idleTimeout : Nat) : Pool Served ServerCall :=
  ⟨⟨{ io := ⟨Session.new now readTimeout writeTimeout idleTimeout, {}⟩, incoming := [] }, []⟩, [.next []]⟩

/-- Nothing is put on the connection behind a frame that was torn. -/
def Served.CleanWrite (s : Served) : SessionEvent → Prop
  | .send e => e.writes = true → s.session.io.wire.torn = false
  | _ => True

instance (s : Served) : (e : SessionEvent) → Decidable (s.CleanWrite e)
  | .send e => inferInstanceAs (Decidable (e.writes = true → s.session.io.wire.torn = false))
  | .receive _ | .close _ | .setInactive => inferInstanceAs (Decidable True)

def ServerCleanWrite (p : Pool Served ServerCall) : TaskPool.Event SessionRequest SessionEvent → Prop
  | .act _ e => p.shared.CleanWrite e
  | .spawn _ => True

instance (p : Pool Served ServerCall) :
    (e : TaskPool.Event SessionRequest SessionEvent) → Decidable (ServerCleanWrite p e)
  | .act _ e => inferInstanceAs (Decidable (p.shared.CleanWrite e))
  | .spawn _ => inferInstanceAs (Decidable True)

/-- What the other tasks of the server do with a session that is served: the cleanup task and `stop` close it, and
the drop of the server sets it inactive. -/
def servesOnly : TaskPool.Event SessionRequest SessionEvent → Bool
  | .spawn .close | .spawn .setInactive | .act _ _ => true
  | .spawn _ => false

end NetworkSystem
