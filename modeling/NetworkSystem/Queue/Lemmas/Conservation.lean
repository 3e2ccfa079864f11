import NetworkSystem.Queue.MessageQueue
import Mathlib.Algebra.Order.Monoid.Prod
import Mathlib.Data.Multiset.OrderedMonoid

/-!
# What the steps of the queue keep

`QueueEffect` sorts the steps of all calls by what they do to the permits and to the channel. Each law of
the queue is checked once for each of these effects.
-/

namespace NetworkSystem

open TaskPool Steps

/-- What a step does to the permits and the channel. -/
inductive QueueEffect (config : MessageQueueConfig) (q : MessageQueue) (c : QueueCall) :
    MessageQueue → QueueCall → Prop
  | quiet {q' : MessageQueue} {c' : QueueCall} (hp : q'.permits = q.permits)
      (hc : q'.channel = q.channel) (hs : q'.sent = q.sent) (hr : q'.received = q.received)
      (hh : c'.holdsPermit = c.holdsPermit) (ho : c'.owesPermit = c.owesPermit) (hput : c'.put = c.put)
      (ht : c'.taken = c.taken) : QueueEffect config q c q' c'
  | acquire {m : Message} (hp : q.permits ≠ 0) (hh : c.holdsPermit = false) (ho : c.owesPermit = false)
      (hput : c.put = none) (ht : c.taken = none) :
      QueueEffect config q c { q with permits := q.permits - 1 } (.holding m)
  | send {m : Message} (hc : c = .holding m) (hlen : q.channel.length < config.maxSize) :
      QueueEffect config q c { q with channel := q.channel ++ [m], sent := q.sent ++ [m] } (.sent m)
  | receive {m : Message} {channel : List Message} (hh : c.holdsPermit = false)
      (ho : c.owesPermit = false) (hput : c.put = none) (ht : c.taken = none)
      (hc : q.channel = m :: channel) :
      QueueEffect config q c { q with channel := channel, received := q.received ++ [m] } (.received m)
  | release {m : Message} (hc : c = .releasing m) :
      QueueEffect config q c { q with permits := q.permits + 1 } (.unlocking (some m))
  | giveBack {m : Message} (hc : c = .holding m) :
      QueueEffect config q c { q with permits := q.permits + 1 } .dropped

variable {config : MessageQueueConfig} {q q' : MessageQueue} {c c' : QueueCall}

/-! ## The source's steps -/

theorem MessageQueue.tryAcquire_effect (q : MessageQueue) {m : Message} {text : String}
    (hh : c.holdsPermit = false) (ho : c.owesPermit = false) (hput : c.put = none)
    (ht : c.taken = none) :
    QueueEffect config q c (q.tryAcquire m text).1 (q.tryAcquire m text).2 := by
  unfold MessageQueue.tryAcquire
  split
  · exact .quiet rfl rfl rfl rfl hh.symm ho.symm hput.symm ht.symm
  · exact .acquire ‹_› hh ho hput ht

theorem MessageQueue.enter_effect (config : MessageQueueConfig) (q : MessageQueue) (kind : QueueCallKind) :
    QueueEffect config q (.entered kind) (q.enter config kind).1 (q.enter config kind).2 := by
  cases kind with
  | enqueue m =>
      simp only [MessageQueue.enter]
      split
      · exact q.tryAcquire_effect rfl rfl rfl rfl
      · exact .quiet rfl rfl rfl rfl rfl rfl rfl rfl
  | tryEnqueue m => exact q.tryAcquire_effect rfl rfl rfl rfl
  | dequeue => exact .quiet rfl rfl rfl rfl rfl rfl rfl rfl
  | tryDequeue =>
      simp only [MessageQueue.enter]
      split <;> exact .quiet rfl rfl rfl rfl rfl rfl rfl rfl
  | stats => exact .quiet rfl rfl rfl rfl rfl rfl rfl rfl

theorem MessageQueue.recv_effect {empty : Option (MessageQueue × QueueCall)}
    (hh : c.holdsPermit = false) (ho : c.owesPermit = false) (hput : c.put = none)
    (ht : c.taken = none) (hempty : ∀ r, empty = some r → QueueEffect config q c r.1 r.2)
    (h : q.recv empty = some (q', c')) : QueueEffect config q c q' c' := by
  unfold MessageQueue.recv at h
  split at h
  · exact hempty _ h
  · cases h; exact .receive hh ho hput ht ‹_›

theorem MessageQueue.go_effect (h : q.go config c = some (q', c')) : QueueEffect config q c q' c' := by
  cases c with
  | entered kind =>
      have he : q.enter config kind = (q', c') := Option.some.inj h
      have heff := MessageQueue.enter_effect config q kind
      rwa [he] at heff
  | acquiring m =>
      simp only [MessageQueue.go] at h
      split at h
      · cases h
      · cases h; exact .acquire ‹_› rfl rfl rfl rfl
  | holding m =>
      simp only [MessageQueue.go, MessageQueue.send] at h
      split at h
      · cases h; exact .send rfl ‹_›
      · cases h
  | locking =>
      simp only [MessageQueue.go] at h
      split at h
      · cases h
      · cases h; exact .quiet rfl rfl rfl rfl rfl rfl rfl rfl
  | receiving => exact MessageQueue.recv_effect rfl rfl rfl rfl (by simp) h
  | tryReceiving =>
      refine MessageQueue.recv_effect rfl rfl rfl rfl ?_ h
      intro r hr
      cases hr
      exact .quiet rfl rfl rfl rfl rfl rfl rfl rfl
  | releasing m => cases h; exact .release rfl
  | unlocking m => cases h; cases m <;> exact .quiet rfl rfl rfl rfl rfl rfl rfl rfl
  | _ => cases h <;> exact .quiet rfl rfl rfl rfl rfl rfl rfl rfl

theorem MessageQueue.dropCall_effect (h : q.dropCall c = some (q', c')) :
    QueueEffect config q c q' c' := by
  cases c with
  | acquiring m => cases h; exact .quiet rfl rfl rfl rfl rfl rfl rfl rfl
  | holding m => cases h; exact .giveBack rfl
  | locking => cases h; exact .quiet rfl rfl rfl rfl rfl rfl rfl rfl
  | receiving => cases h; exact .quiet rfl rfl rfl rfl rfl rfl rfl rfl
  | _ => cases h

theorem MessageQueue.callStep_effect {e : QueueEvent}
    (h : MessageQueue.callStep config q c e = some (q', c')) : QueueEffect config q c q' c' := by
  cases e with
  | go => exact MessageQueue.go_effect h
  | timedOut =>
      cases c with
      | acquiring m => cases h; exact .quiet rfl rfl rfl rfl rfl rfl rfl rfl
      | _ => cases h
  | drop => exact MessageQueue.dropCall_effect h

/-! ## The laws, effect by effect -/

/-- The permits that a call stands for: the one in its hand and the one it owes. -/
def QueueCall.permits (c : QueueCall) : Nat := c.holdsPermit.toNat + c.owesPermit.toNat

/-- The messages that a call has put into the channel and taken out of it. -/
def QueueCall.messages (c : QueueCall) : Multiset Message × Multiset Message :=
  (c.put.toList, c.taken.toList)

/-- The messages that went into the channel and that came out of it. -/
def MessageQueue.ledger (q : MessageQueue) : Multiset Message × Multiset Message := (q.sent, q.received)

theorem QueueCall.permits_idle (hh : c.holdsPermit = false) (ho : c.owesPermit = false) :
    c.permits = 0 := by
  rw [QueueCall.permits, hh, ho]; rfl

theorem QueueCall.messages_none (hput : c.put = none) (ht : c.taken = none) : c.messages = 0 := by
  rw [QueueCall.messages, hput, ht]; rfl

section Permits

variable (m : Message)

@[simp] theorem QueueCall.permits_holding : (QueueCall.holding m).permits = 1 := rfl

@[simp] theorem QueueCall.permits_sent : (QueueCall.sent m).permits = 0 := rfl

@[simp] theorem QueueCall.permits_received : (QueueCall.received m).permits = 1 := rfl

@[simp] theorem QueueCall.permits_releasing : (QueueCall.releasing m).permits = 1 := rfl

@[simp] theorem QueueCall.permits_unlocking : (QueueCall.unlocking (some m)).permits = 0 := rfl

@[simp] theorem QueueCall.permits_dropped : QueueCall.dropped.permits = 0 := rfl

end Permits

theorem QueueEffect.permits (h : QueueEffect config q c q' c') :
    q'.permits + q'.channel.length + c'.permits = q.permits + q.channel.length + c.permits := by
  cases h with
  | quiet hp hc hs hr hh ho hput ht => rw [hp, hc, QueueCall.permits, QueueCall.permits, hh, ho]
  | acquire hp hh ho hput ht =>
      rw [QueueCall.permits_idle hh ho]
      simp only [QueueCall.permits_holding]
      omega
  | send hc hlen =>
      subst hc
      simp only [QueueCall.permits_holding, QueueCall.permits_sent, List.length_append,
        List.length_singleton]
      omega
  | receive hh ho hput ht hc =>
      rw [QueueCall.permits_idle hh ho, hc]
      simp only [QueueCall.permits_received, List.length_cons]
      omega
  | release hc =>
      subst hc
      simp only [QueueCall.permits_releasing, QueueCall.permits_unlocking]
      omega
  | giveBack hc =>
      subst hc
      simp only [QueueCall.permits_holding, QueueCall.permits_dropped]
      omega

/-- The channel is a queue: what was sent and not received is in it, in order. -/
theorem QueueEffect.fifo (h : QueueEffect config q c q' c') (hq : q.sent = q.received ++ q.channel) :
    q'.sent = q'.received ++ q'.channel := by
  cases h with
  | quiet hp hc hs hr hh ho hput ht => rw [hs, hr, hc, hq]
  | acquire hp hh ho hput ht => exact hq
  | send hc hlen => simp [hq]
  | receive hh ho hput ht hc => simp [hq, hc]
  | release hc => exact hq
  | giveBack hc => exact hq

theorem QueueEffect.ledger (h : QueueEffect config q c q' c') :
    q'.ledger + c.messages = q.ledger + c'.messages := by
  cases h with
  | quiet hp hc hs hr hh ho hput ht =>
      rw [MessageQueue.ledger, MessageQueue.ledger, QueueCall.messages, QueueCall.messages, hs, hr, hput,
        ht]
  | acquire hp hh ho hput ht =>
      rw [QueueCall.messages_none hput ht]; rfl
  | send hc hlen =>
      subst hc
      simp [MessageQueue.ledger, QueueCall.messages, QueueCall.put, QueueCall.taken, ← Multiset.coe_add]
  | receive hh ho hput ht hc =>
      rw [QueueCall.messages_none hput ht]
      simp [MessageQueue.ledger, QueueCall.messages, QueueCall.put, QueueCall.taken, ← Multiset.coe_add]
  | release hc =>
      subst hc
      simp [MessageQueue.ledger, QueueCall.messages, QueueCall.put, QueueCall.taken]
  | giveBack hc =>
      subst hc
      simp [MessageQueue.ledger, QueueCall.messages, QueueCall.put, QueueCall.taken]

theorem sum_messages (calls : List QueueCall) : (calls.map QueueCall.messages).sum =
    (Multiset.ofList (calls.filterMap QueueCall.put),
      Multiset.ofList (calls.filterMap QueueCall.taken)) := by
  induction calls with
  | nil => rfl
  | cons c calls ih =>
      rw [List.map_cons, List.sum_cons, ih, QueueCall.messages, List.filterMap_cons, List.filterMap_cons]
      cases c.put <;> cases c.taken <;> rfl

/-! ## The queue and its calls -/

structure MessageQueue.Accounted (config : MessageQueueConfig) (p : Pool MessageQueue QueueCall) : Prop where
  permits : p.shared.permits + p.shared.channel.length + p.total QueueCall.permits = config.maxSize
  fifo : p.shared.sent = p.shared.received ++ p.shared.channel
  ledger : p.shared.ledger = p.total QueueCall.messages

theorem MessageQueue.Accounted.fresh (config : MessageQueueConfig) :
    Accounted config (MessageQueue.fresh config) where
  permits := rfl
  fifo := rfl
  ledger := rfl

theorem MessageQueue.Accounted.step {p p' : Pool MessageQueue QueueCall} (h : Accounted config p)
    {e : Event QueueCallKind QueueEvent} (hs : (queueCalls config).step p e = some p') :
    Accounted config p' where
  permits := by
    rw [← h.permits]
    exact Program.conserves (f := fun q : MessageQueue => q.permits + q.channel.length)
      (fun _ _ _ _ _ ha => (MessageQueue.callStep_effect ha).permits) (fun _ => rfl) hs
  fifo :=
    Program.shared_invariant (I := fun q : MessageQueue => q.sent = q.received ++ q.channel)
      (fun _ _ _ _ _ ha => (MessageQueue.callStep_effect ha).fifo) hs h.fifo
  ledger :=
    Program.accounts (fun _ _ _ _ _ _ ha => (MessageQueue.callStep_effect ha).ledger) (fun _ => rfl) hs
      h.ledger

theorem MessageQueue.Accounted.run {es : List (Event QueueCallKind QueueEvent)}
    {p : Pool MessageQueue QueueCall}
    (hr : run (queueCalls config).step (MessageQueue.fresh config) es = some p) : Accounted config p :=
  run_invariant (fun _ _ _ h hs => h.step hs) (.fresh config) hr

theorem MessageQueue.Accounted.sent_length {p : Pool MessageQueue QueueCall} (h : Accounted config p) :
    p.shared.sent.length = p.tasks.countP fun c => c.put.isSome := by
  rw [← List.length_filterMap_eq_countP]
  exact congrArg Multiset.card (congrArg Prod.fst (h.ledger.trans (sum_messages p.tasks)))

theorem MessageQueue.Accounted.received_length {p : Pool MessageQueue QueueCall} (h : Accounted config p) :
    p.shared.received.length = p.tasks.countP fun c => c.taken.isSome := by
  rw [← List.length_filterMap_eq_countP]
  exact congrArg Multiset.card (congrArg Prod.snd (h.ledger.trans (sum_messages p.tasks)))

end NetworkSystem
