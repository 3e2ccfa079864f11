import NetworkSystem.Link.Link

/-!
# A client that waits for each reply

The loop of `examples/simple_client.rs` and `examples/compression_client.rs`, for any list of messages:
`client.send(&msg).await?`, then `client.receive().await?`, then the next message. A call that fails ends the client.
-/

namespace NetworkSystem

open TaskPool

inductive ExchangeTask where
  /-- The call that the client awaits, and the messages that it sends after that. -/
  | awaiting (call : StreamCall) (todo : List Message)
  | ended
  deriving DecidableEq

namespace ExchangeTask

def next : List Message → ExchangeTask
  | [] => .ended
  | m :: todo => .awaiting (StreamCall.start (.send .send m)) todo

/-- The client after a step of the call that it awaits. -/
def resume (todo : List Message) : StreamCall → ExchangeTask
  | .send ⟨kind, m, stage⟩ =>
      match stage with
      | .returned (.ok ()) => .awaiting (StreamCall.start .receive) todo
      | .returned (.error _) => .ended
      | stage => .awaiting (.send ⟨kind, m, stage⟩) todo
  | .receive (.returned (.ok _)) => next todo
  | .receive (.returned (.error _)) => .ended
  | c => .awaiting c todo

end ExchangeTask

structure Exchange where
  shared : SharedClient
  task : ExchangeTask
  deriving DecidableEq

namespace Exchange

def connected (clientTimeout : Nat) (requests : List Message) : Exchange :=
  ⟨SharedClient.connected clientTimeout, .next requests⟩

def step (x : Exchange) (e : StreamEvent) : Option Exchange :=
  match x.task with
  | .awaiting call todo => (call.act x.shared e).map fun r => ⟨r.1, .resume todo r.2⟩
  | .ended => none

theorem step_eq_some {x x' : Exchange} {e : StreamEvent} : x.step e = some x' ↔ ∃ call todo s call',
    x.task = .awaiting call todo ∧ call.act x.shared e = some (s, call') ∧ x' = ⟨s, .resume todo call'⟩ := by
  unfold step
  cases x.task with
  | ended => simp
  | awaiting call todo =>
      simp only [Option.map_eq_some_iff, ExchangeTask.awaiting.injEq]
      constructor
      · rintro ⟨r, hr, rfl⟩
        exact ⟨call, todo, r.1, r.2, ⟨rfl, rfl⟩, hr, rfl⟩
      · rintro ⟨_, _, s, call', ⟨rfl, rfl⟩, hr, rfl⟩
        exact ⟨(s, call'), hr, rfl⟩

end Exchange

def exchangeEnd : Duplex.Endpoint Exchange StreamEvent UInt8 where
  step := Exchange.step
  written x := x.shared.io.wire.written
  arrived x := x.shared.arrived
  deliver x bytes := { x with shared.incoming := x.shared.incoming ++ bytes }
  written_step h := by
    obtain ⟨call, todo, s, call', _, hact, rfl⟩ := Exchange.step_eq_some.mp h
    exact StreamCall.act_written hact
  arrived_step h := by
    obtain ⟨call, todo, s, call', _, hact, rfl⟩ := Exchange.step_eq_some.mp h
    exact StreamCall.act_arrived hact
  written_deliver _ _ := rfl
  arrived_deliver _ _ := (List.append_assoc _ _ _).symm

abbrev ExchangeLink := Duplex.Pair Exchange (Pool Served ServerCall)

abbrev ExchangeEvent := Duplex.Event StreamEvent (TaskPool.Event SessionRequest SessionEvent)

namespace ExchangeLink

def step (reply : Message → Option Message) : ExchangeLink → ExchangeEvent → Option ExchangeLink :=
  Duplex.step exchangeEnd (serverEnd fun m => (reply m).toList)

def opened (requests : List Message) (clientTimeout now readTimeout writeTimeout idleTimeout : Nat) :
    ExchangeLink where
  left := Exchange.connected clientTimeout requests
  right := Served.accept now readTimeout writeTimeout idleTimeout

def ServesOnly (l : ExchangeLink) : ExchangeEvent → Prop := Duplex.OnRight (fun _ e => servesOnly e = true) l

/-- The messages that the client has received, and those that the session has returned to its task. -/
def received (l : ExchangeLink) : List Message := l.left.shared.received

def got (l : ExchangeLink) : List Message := l.right.shared.got

instance (l : ExchangeLink) (e : ExchangeEvent) : Decidable (l.ServesOnly e) :=
  inferInstanceAs (Decidable (Duplex.OnRight (fun _ e => servesOnly e = true) l e))

end ExchangeLink

end NetworkSystem
