import NetworkSystem.Queue.MessageQueue

/-!
# What the statistics are about

`MessageQueue::stats` and `is_empty` of `src/core/message_queue.rs`, next to the messages that they speak of:
those in the channel, and those that calls have offered.
-/

namespace NetworkSystem

open TaskPool

/-- `is_empty`, which asks `stats` for the depth. -/
def MessageQueueStats.isEmpty (stats : MessageQueueStats) : Bool := stats.depth == 0

/-! ## Offered messages -/

def offers : Event QueueCallKind QueueEvent → Bool
  | .spawn (.enqueue _) | .spawn (.tryEnqueue _) => true
  | _ => false

def QueueEvent.timesOut : QueueEvent → Bool
  | .timedOut => true
  | _ => false

def timesOut : Event QueueCallKind QueueEvent → Bool
  | .act _ e => e.timesOut
  | _ => false

def dropsCall : Event QueueCallKind QueueEvent → Bool
  | .act _ .drop => true
  | _ => false

def QueueCall.isReturned : QueueCall → Bool
  | .enqueued _ | .failed _ | .dequeued _ | .reported _ => true
  | _ => false

/-- The next call is a `stats()` that runs by itself. -/
def statsCall (p : Pool MessageQueue QueueCall) : List (Event QueueCallKind QueueEvent) :=
  .spawn .stats :: acts p.tasks.length [.go, .go, .go]

/-! ## Returned messages in the queue -/

def QueueCall.isSent : QueueCall → Bool
  | .sent _ => true
  | _ => false

/-- The pool, with the calls in the order in which they sent their messages, and in the order in which these were
counted as enqueued. `calm` is how many calls had begun when the queue last held no message of an enqueue that
had returned. -/
structure QueueWatch where
  pool : Pool MessageQueue QueueCall
  senders : List Nat
  counted : List Nat
  calm : Nat
  deriving Repr, DecidableEq

namespace QueueWatch

def fresh (config : MessageQueueConfig) : QueueWatch := ⟨MessageQueue.fresh config, [], [], 0⟩

/-- The calls whose messages are in the channel. -/
def queued (w : QueueWatch) : List Nat := w.senders.drop w.pool.shared.received.length

/-- The calls whose messages were received. -/
def taken (w : QueueWatch) : List Nat := w.senders.take w.pool.shared.received.length

def returned (w : QueueWatch) (i : Nat) : Bool :=
  match w.pool.tasks[i]? with
  | some (.enqueued _) => true
  | _ => false

def isCalm (w : QueueWatch) : Bool := w.queued.all fun i => !w.returned i

/-- The call that the event moves on, if it stands where `stage` says. -/
def moved (stage : QueueCall → Bool) (w : QueueWatch) : Event QueueCallKind QueueEvent → List Nat
  | .act i .go => if (w.pool.tasks[i]?).any stage then [i] else []
  | _ => []

def noteCalm (w : QueueWatch) : QueueWatch := if w.isCalm then { w with calm := w.pool.tasks.length } else w

def step (config : MessageQueueConfig) (w : QueueWatch) (e : Event QueueCallKind QueueEvent) : Option QueueWatch :=
  ((queueCalls config).step w.pool e).map fun pool =>
    noteCalm ⟨pool, w.senders ++ w.moved QueueCall.holdsPermit e, w.counted ++ w.moved QueueCall.isSent e, w.calm⟩

/-- At some moment of every call that reports an empty queue the queue held no message of an enqueue that had
returned. -/
def SoundReports (w : QueueWatch) : Prop :=
  ∀ (k : Nat) (stats : MessageQueueStats), w.pool.tasks[k]? = some (.reported stats) → stats.isEmpty = true →
    k < w.calm

/-- Where a `stats()` in which there was no such moment so far reads the counter of dequeued messages, the
messages that were received and those of returned enqueues that are in the queue had all been counted as
enqueued when it read that counter. -/
def CountsMessages (w : QueueWatch) (e : Event QueueCallKind QueueEvent) : Prop :=
  ∀ k enqueued, e = .act k .go → w.pool.tasks[k]? = some (.loadedEnqueued enqueued) → w.calm ≤ k →
    ∀ i ∈ w.queued, w.returned i = true → ∀ j ∈ i :: w.taken, j ∈ w.counted.take enqueued

/-- The same as a test. -/
def countsMessages (w : QueueWatch) : Event QueueCallKind QueueEvent → Bool
  | .act k .go =>
      match w.pool.tasks[k]? with
      | some (.loadedEnqueued enqueued) =>
          decide (w.calm ≤ k → ∀ i ∈ w.queued, w.returned i = true → ∀ j ∈ i :: w.taken, j ∈ w.counted.take enqueued)
      | _ => true
  | _ => true

theorem countsMessages_iff {w : QueueWatch} {e : Event QueueCallKind QueueEvent} :
    w.countsMessages e = true ↔ w.CountsMessages e := by
  constructor
  · rintro h k enqueued rfl hk
    simp only [countsMessages, hk, decide_eq_true_eq] at h
    exact h
  · intro h
    unfold countsMessages
    split
    · split
      · rename_i k _ enqueued hk
        exact decide_eq_true (h k enqueued rfl hk)
      · rfl
    · rfl

instance (w : QueueWatch) (e : Event QueueCallKind QueueEvent) : Decidable (w.CountsMessages e) :=
  decidable_of_iff _ countsMessages_iff

end QueueWatch

end NetworkSystem
