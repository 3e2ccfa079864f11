import NetworkSystem.Handler.ThreadPoolHandler
import NetworkSystem.Server.TcpServer

/-!
# A server with a thread pool

A `MonitoredServer` whose handler is a `ThreadPoolSessionHandler`, as `examples/thread_pool_server.rs` sets it up
without the metrics. The callbacks that the session tasks make are calls of the handler: a task goes on from a
callback when the handler has returned, and the handler of a task that panics or is cancelled does not go on.
-/

namespace NetworkSystem

structure HandledServer (W : Type) where
  server : TcpServer
  handler : ThreadPoolHandler W

inductive HandledEvent where
  | server (e : ServerEvent)
  | handler (e : DelegationEvent)
  deriving Repr, DecidableEq

/-- The steps that the handler takes by itself. -/
def DelegationEvent.isOwn : DelegationEvent → Bool
  | .submit _ _ | .work _ | .cancel _ | .resume _ | .finish _ => true
  | .accept | .call _ _ | .tearDown _ => false

/-- What a step of task `i` is for the handler. -/
def DelegationEvent.ofTask (i : Nat) (t t' : SessionTask) : Option DelegationEvent :=
  match t'.log.drop t.log.length with
  | c :: _ => some (.call i c)
  | [] => if t'.stage = .panicked ∨ t'.stage = .cancelled then some (.tearDown i) else none

namespace HandledServer

variable {W : Type}

def withConfig (config : ServerConfig) (world : W) : HandledServer W := ⟨.withConfig config, ⟨world, [], []⟩⟩

def returned (x : HandledServer W) (i : Nat) : Bool :=
  (x.handler.sessions[i]?).any fun s => decide (s.stage = .idle)

/-- The handler, when the server has taken a step. -/
def follow (process : MessageProcessor W) (x : HandledServer W) (server : TcpServer) :
    ServerEvent → Option (ThreadPoolHandler W)
  | .task i e =>
      match x.server.tasks[i]?, server.tasks[i]? with
      | some t, some t' =>
          if e = .go ∧ t.stage.inCallback then if x.returned i then some x.handler else none
          else
            match DelegationEvent.ofTask i t t' with
            | some e => x.handler.step process e
            | none => some x.handler
      | _, _ => some x.handler
  | .accept =>
      if x.server.tasks.length < server.tasks.length then x.handler.step process .accept else some x.handler
  | _ => some x.handler

def step (config : ServerConfig) (process : MessageProcessor W) (x : HandledServer W) :
    HandledEvent → Option (HandledServer W)
  | .server e =>
      (x.server.step config e).bind fun server =>
        (x.follow process server e).map fun handler => ⟨server, handler⟩
  | .handler e =>
      if e.isOwn then (x.handler.step process e).map fun handler => { x with handler } else none

end HandledServer

/-- No job is refused or cancelled. -/
def HandledEvent.keepsJob : HandledEvent → Bool
  | .server _ => true
  | .handler e => e.keepsJob

/-- What the inner handler sees of a session: the task's callbacks, with every message processed but those that
the log accounts for and the last one, which may be on its way. -/
structure SeesSession {W : Type} (process : MessageProcessor W) (t : SessionTask) (s : DelegatedSession) : Prop where
  received : s.received = t.log
  delegates : ∃ pending, s.Delegates process pending ∧ (s.stage = .idle ∨ s.stage = .inner → pending = none)
  bracketed : ∃ rest, ClosedLog (s.inner ++ rest)
  closed : ClosedLog t.log → ClosedLog s.inner

end NetworkSystem
