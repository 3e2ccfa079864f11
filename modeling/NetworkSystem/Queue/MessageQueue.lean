import NetworkSystem.Lib.TaskPool
import NetworkSystem.Wire.Message

/-!
# The message queue

`src/core/message_queue.rs`. Any number of calls run on one queue; each statement that touches the
semaphore, the channel, the receiver's mutex or a counter is a step of its own, and a call can be dropped
at its awaits. The counters are natural numbers.

Both ends of the channel and the semaphore belong to the queue, which every call borrows: the channel is
never closed while a call runs, and nothing closes the semaphore.
-/

namespace NetworkSystem

open TaskPool

/-- `MessageQueueConfig`; `enqueue_timeout` may run out at any time. -/
structure MessageQueueConfig where
  maxSize : Nat := 1000
  dropOnFull : Bool := false
  deriving Repr, DecidableEq

/-- The queue, and the history of its channel: what was sent on it and what was received from it. -/
structure MessageQueue where
  permits : Nat
  channel : List Message := []
  rxLocked : Bool := false
  enqueuedCount : Nat := 0
  dequeuedCount : Nat := 0
  droppedCount : Nat := 0
  sent : List Message := []
  received : List Message := []
  deriving Repr, DecidableEq

def MessageQueue.new (config : MessageQueueConfig) : MessageQueue := { permits := config.maxSize }

structure MessageQueueStats where
  depth : Nat
  maxSize : Nat
  enqueued : Nat
  dequeued : Nat
  dropped : Nat
  deriving Repr, DecidableEq

inductive QueueCallKind where
  | enqueue (message : Message)
  | tryEnqueue (message : Message)
  | dequeue
  | tryDequeue
  | stats
  deriving Repr, DecidableEq

/-- Where a call stands, with the local variables that it still uses. -/
inductive QueueCall where
  | entered (kind : QueueCallKind)
  /-- `semaphore.acquire()` under its timeout. -/
  | acquiring (message : Message)
  /-- No permit was left; the drop is not counted yet. -/
  | refusing (text : String)
  /-- `tx.send(message).await`, with a permit in hand. -/
  | holding (message : Message)
  | sent (message : Message)
  /-- Counted as enqueued; the permit is not forgotten yet. -/
  | counted (message : Message)
  | enqueued (message : Message)
  | failed (err : NetworkError)
  /-- `rx.lock().await`. -/
  | locking
  /-- `recv().await`, under the lock. -/
  | receiving
  /-- `try_recv()`, under the lock. -/
  | tryReceiving
  | received (message : Message)
  /-- Counted as dequeued; its permit is not added back yet. -/
  | releasing (message : Message)
  | unlocking (message : Option Message)
  | dequeued (message : Option Message)
  | loadedEnqueued (enqueued : Nat)
  | loadedDequeued (enqueued dequeued : Nat)
  | reported (stats : MessageQueueStats)
  | dropped
  deriving Repr, DecidableEq

inductive QueueEvent where
  | go
  | timedOut
  | drop
  deriving Repr, DecidableEq

namespace MessageQueue

/-- `semaphore.try_acquire()` of `enqueue` and `try_enqueue`, with the text of its error. -/
def tryAcquire (q : MessageQueue) (message : Message) (text : String) : MessageQueue × QueueCall :=
  if q.permits = 0 then (q, .refusing text) else ({ q with permits := q.permits - 1 }, .holding message)

def enter (config : MessageQueueConfig) (q : MessageQueue) : QueueCallKind → MessageQueue × QueueCall
  | .enqueue message =>
      if config.dropOnFull then q.tryAcquire message "Message queue full, message dropped"
      else (q, .acquiring message)
  | .tryEnqueue message => q.tryAcquire message "Message queue full"
  | .dequeue => (q, .locking)
  | .tryDequeue =>
      if q.rxLocked then (q, .dequeued none) else ({ q with rxLocked := true }, .tryReceiving)
  | .stats => (q, .loadedEnqueued q.enqueuedCount)

/-- The channel takes the message when it has room. -/
def send (config : MessageQueueConfig) (q : MessageQueue) (message : Message) :
    Option (MessageQueue × QueueCall) :=
  if q.channel.length < config.maxSize then
    some ({ q with channel := q.channel ++ [message], sent := q.sent ++ [message] }, .sent message)
  else none

/-- The first message of the channel, or `empty` when there is none. -/
def recv (q : MessageQueue) (empty : Option (MessageQueue × QueueCall)) :
    Option (MessageQueue × QueueCall) :=
  match q.channel with
  | [] => empty
  | message :: channel =>
      some ({ q with channel := channel, received := q.received ++ [message] }, .received message)

def go (config : MessageQueueConfig) (q : MessageQueue) : QueueCall → Option (MessageQueue × QueueCall)
  | .entered kind => some (q.enter config kind)
  | .acquiring message =>
      if q.permits = 0 then none
      else some ({ q with permits := q.permits - 1 }, .holding message)
  | .refusing text => some ({ q with droppedCount := q.droppedCount + 1 }, .failed (.other text))
  | .holding message => q.send config message
  | .sent message => some ({ q with enqueuedCount := q.enqueuedCount + 1 }, .counted message)
  | .counted message => some (q, .enqueued message)
  | .locking => if q.rxLocked then none else some ({ q with rxLocked := true }, .receiving)
  | .receiving => q.recv none
  | .tryReceiving => q.recv (some (q, .unlocking none))
  | .received message => some ({ q with dequeuedCount := q.dequeuedCount + 1 }, .releasing message)
  | .releasing message => some ({ q with permits := q.permits + 1 }, .unlocking (some message))
  | .unlocking message => some ({ q with rxLocked := false }, .dequeued message)
  | .loadedEnqueued enqueued => some (q, .loadedDequeued enqueued q.dequeuedCount)
  | .loadedDequeued enqueued dequeued =>
      some (q, .reported
        { depth := enqueued - dequeued, maxSize := config.maxSize, enqueued := enqueued,
          dequeued := dequeued, dropped := q.droppedCount })
  | .enqueued _ | .failed _ | .dequeued _ | .reported _ | .dropped => none

/-- The caller drops the call at an await: its permit and its lock are given back. -/
def dropCall (q : MessageQueue) : QueueCall → Option (MessageQueue × QueueCall)
  | .acquiring _ | .locking => some (q, .dropped)
  | .holding _ => some ({ q with permits := q.permits + 1 }, .dropped)
  | .receiving => some ({ q with rxLocked := false }, .dropped)
  | _ => none

def callStep (config : MessageQueueConfig) (q : MessageQueue) (c : QueueCall) :
    QueueEvent → Option (MessageQueue × QueueCall)
  | .go => q.go config c
  | .timedOut =>
      match c with
      | .acquiring _ => some (q, .failed (.timeout "Enqueue timeout: queue full"))
      | _ => none
  | .drop => q.dropCall c

end MessageQueue

/-- Calls on one queue, by any number of tasks. -/
def queueCalls (config : MessageQueueConfig) : Program MessageQueue QueueCall QueueCallKind QueueEvent where
  start := .entered
  act := MessageQueue.callStep config

def MessageQueue.fresh (config : MessageQueueConfig) : Pool MessageQueue QueueCall :=
  ⟨MessageQueue.new config, []⟩

/-! ## What the calls hold -/

namespace QueueCall

/-- The call has a permit, and its message is not sent yet. -/
def holdsPermit : QueueCall → Bool
  | .holding _ => true
  | _ => false

/-- The call took a message out of the channel and has not added its permit back yet. -/
def owesPermit : QueueCall → Bool
  | .received _ | .releasing _ => true
  | _ => false

def put : QueueCall → Option Message
  | .sent m | .counted m | .enqueued m => some m
  | _ => none

def taken : QueueCall → Option Message
  | .received m | .releasing m | .unlocking (some m) | .dequeued (some m) => some m
  | _ => none

end QueueCall

end NetworkSystem
