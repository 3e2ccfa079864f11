import NetworkSystem.Queue.Lemmas.Emptiness
import NetworkSystem.Queue.Lemmas.Waiting

/-!
# What the message queue keeps and reports

Permits, messages in the channel and calls between two of their steps always add up to the capacity, and
what is dequeued is what was sent. The statistics account for the messages that were offered unless an enqueue
timed out, and a queue that reports that it is empty was so if its counters were read in step. Left to itself, the
queue comes to rest, and then nobody waits without cause.
-/

namespace NetworkSystem

open Steps TaskPool

/-! ## Sums over the calls -/

theorem sum_permits (calls : List QueueCall) : (calls.map QueueCall.permits).sum =
    calls.countP QueueCall.holdsPermit + calls.countP QueueCall.owesPermit := by
  induction calls with
  | nil => rfl
  | cons c calls ih =>
      rw [List.map_cons, List.sum_cons, ih, List.countP_cons, List.countP_cons, QueueCall.permits]
      cases c.holdsPermit <;> cases c.owesPermit <;>
        simp only [Bool.toNat_true, Bool.toNat_false, if_true, Bool.false_eq_true, if_false] <;> omega

/-! ## The laws -/

/-- A call that has a permit finds room in the channel. -/
theorem MessageQueue.Accounted.room {config : MessageQueueConfig} {p : Pool MessageQueue QueueCall}
    (h : Accounted config p) {i : Nat} {m : Message} (hi : p.tasks[i]? = some (.holding m)) :
    p.shared.channel.length < config.maxSize := by
  have hle : QueueCall.permits (.holding m) ≤ p.total QueueCall.permits :=
    le_total_of_mem QueueCall.permits (List.mem_of_getElem? hi)
  rw [QueueCall.permits_holding] at hle
  have := h.permits
  omega

/-- In every state that any interleaving of calls reaches, the permits, the calls that hold one for a
message that is not sent, the messages in the channel and the calls that have taken a message and not yet
added its permit back make up the capacity. So the channel never holds more than that, and a call with a
permit sends at once. What was received is the first part of what was sent and the channel is the rest;
each call accounts for exactly the messages that it sent or received. -/
theorem queue_conservation (config : MessageQueueConfig) (es : List (Event QueueCallKind QueueEvent))
    (p : Pool MessageQueue QueueCall)
    (hr : run (queueCalls config).step (MessageQueue.fresh config) es = some p) :
    p.shared.permits + p.tasks.countP QueueCall.holdsPermit + p.shared.channel.length +
        p.tasks.countP QueueCall.owesPermit = config.maxSize ∧
    p.shared.channel.length ≤ config.maxSize ∧
    (∀ i m, p.tasks[i]? = some (.holding m) → ∃ p', (queueCalls config).step p (.act i .go) = some p' ∧
      p'.tasks[i]? = some (.sent m) ∧ p'.shared.channel = p.shared.channel ++ [m]) ∧
    p.shared.sent = p.shared.received ++ p.shared.channel ∧
    (p.tasks.filterMap QueueCall.put).Perm p.shared.sent ∧
    (p.tasks.filterMap QueueCall.taken).Perm p.shared.received := by
  have h := MessageQueue.Accounted.run hr
  have hsum : p.total QueueCall.permits =
      p.tasks.countP QueueCall.holdsPermit + p.tasks.countP QueueCall.owesPermit := sum_permits p.tasks
  have hledger := h.ledger.trans (sum_messages p.tasks)
  have hpermits := h.permits
  rw [hsum] at hpermits
  refine ⟨by omega, by omega, ?_, h.fifo, ?_, ?_⟩
  · intro i m hi
    have hstep : MessageQueue.callStep config p.shared (.holding m) .go =
        some ({ p.shared with channel := p.shared.channel ++ [m], sent := p.shared.sent ++ [m] },
          .sent m) :=
      if_pos (h.room hi)
    refine ⟨_, Program.step_act.mpr ⟨_, _, _, hi, hstep, rfl⟩, ?_, rfl⟩
    have hlt : i < p.tasks.length := (List.getElem?_eq_some_iff.mp hi).1
    exact List.getElem?_set_self hlt
  · exact (Multiset.coe_eq_coe.mp (congrArg Prod.fst hledger)).symm
  · exact (Multiset.coe_eq_coe.mp (congrArg Prod.snd hledger)).symm

/-- A queue for one message: it is sent and received, and the permit is about to be added back. -/
def betweenReceiveAndRelease : List (Event QueueCallKind QueueEvent) :=
  .spawn (.enqueue ⟨[7]⟩) :: acts 0 [.go, .go, .go, .go, .go] ++ .spawn .dequeue :: acts 1 [.go, .go, .go]

theorem queue_of_one_conserves :
    ∃ p, run (queueCalls { maxSize := 1 }).step (MessageQueue.fresh { maxSize := 1 })
        betweenReceiveAndRelease = some p ∧
      p.shared.permits + p.tasks.countP QueueCall.holdsPermit + p.shared.channel.length +
        p.tasks.countP QueueCall.owesPermit = 1 :=
  ⟨_, rfl, (queue_conservation { maxSize := 1 } betweenReceiveAndRelease _ rfl).1⟩

/-- Between the receive and the permit that is added back nobody holds the permit: without the last term
the sum falls short of the capacity. -/
theorem queue_permit_between_receive_and_release :
    ∃ p, run (queueCalls { maxSize := 1 }).step (MessageQueue.fresh { maxSize := 1 })
        betweenReceiveAndRelease = some p ∧
      p.shared.permits + p.tasks.countP QueueCall.holdsPermit + p.shared.channel.length = 0 :=
  ⟨_, rfl, by decide⟩

/-! ## Waiting -/

/-- From every state that any interleaving of calls reaches, timeouts and dropped calls included, the calls in
progress come to rest: however they take their own steps, each of them takes at most six, and they can always go on to
a state in which none is left. In every such state the calls have returned but for enqueues that wait while the
channel is full and dequeues that wait while it is empty. -/
theorem queue_comes_to_rest (config : MessageQueueConfig) (es : List (Event QueueCallKind QueueEvent))
    (p : Pool MessageQueue QueueCall)
    (hr : run (queueCalls config).step (MessageQueue.fresh config) es = some p) :
    (∃ fs p', (∀ e ∈ fs, e.IsOwn (· = .go)) ∧ run (queueCalls config).step p fs = some p' ∧
      Quiet (queueCalls config).step (Event.IsOwn (· = .go)) p') ∧
    ∀ fs p', (∀ e ∈ fs, e.IsOwn (· = .go)) → run (queueCalls config).step p fs = some p' →
      (∀ i, fs.countP (Event.isAct i) ≤ 6) ∧ fs.length ≤ 6 * p.tasks.length ∧
      (Quiet (queueCalls config).step (Event.IsOwn (· = .go)) p' → MessageQueue.OnlyWaits config p') := by
  -- all the work is with the calls
  have hwork : ∀ q c e q' c', e = .go → MessageQueue.callStep config q c e = some (q', c') →
      0 + c'.stepsLeft < 0 + c.stepsLeft :=
    fun q c e q' c' he h => Nat.add_lt_add_left (MessageQueue.callStep_stepsLeft q c e q' c' he h) 0
  obtain ⟨hrests, hlength⟩ := Program.rests (P := queueCalls config) hwork p
  refine ⟨hrests, fun fs p' hfs hr' => ⟨fun i => ?_, ?_, fun hquiet => ?_⟩⟩
  · refine (Program.countP_isAct_le MessageQueue.callStep_stepsLeft hfs hr' i).trans ?_
    cases p.tasks[i]? with
    | none => exact Nat.zero_le _
    | some c => exact c.stepsLeft_le
  · have hle := hlength fs p' hfs hr'
    have htotal := p.total_le QueueCall.stepsLeft_le
    omega
  · have hreached := run_append.mpr ⟨p, hr, hr'⟩
    refine .of_quiet (.run hreached) (fun c hc => ?_) (MessageQueue.lock_held hreached)
    exact Program.act_none_of_quiet (P := queueCalls config) hquiet hc (e := .go) rfl

/-- Call `i` begins and takes this many steps. -/
def takesSteps (i : Nat) (kind : QueueCallKind) (steps : Nat) : List (Event QueueCallKind QueueEvent) :=
  .spawn kind :: acts i (List.replicate steps .go)

/-- A queue for one message is full, and a second enqueue waits. -/
def secondWaits : Pool MessageQueue QueueCall where
  shared := { permits := 0, channel := [⟨[1]⟩], enqueuedCount := 1, sent := [⟨[1]⟩] }
  tasks := [.enqueued ⟨[1]⟩, .acquiring ⟨[2]⟩]

theorem queue_of_one_comes_to_rest : MessageQueue.OnlyWaits { maxSize := 1 } secondWaits := by
  have hr : run (queueCalls { maxSize := 1 }).step (MessageQueue.fresh { maxSize := 1 })
      (takesSteps 0 (.enqueue ⟨[1]⟩) 5 ++ takesSteps 1 (.enqueue ⟨[2]⟩) 1) = some secondWaits := by decide
  refine ((queue_comes_to_rest { maxSize := 1 } _ secondWaits hr).2 [] secondWaits (by simp) rfl).2.2 ?_
  rintro (_ | ⟨i, e⟩) hown
  · exact hown.elim
  · obtain rfl : e = .go := hown
    match i with
    | 0 | 1 | _ + 2 => rfl

/-! ## Statistics -/

/-- In every state with no call in progress the calls that offered a message are those counted as enqueued or
dropped and the enqueues that timed out, and the reported depth is that of the channel. So the statistics account
for every message offered if and only if no enqueue timed out. Every call runs to its return. -/
theorem offered_messages_accounted_iff (config : MessageQueueConfig) (es : List (Event QueueCallKind QueueEvent))
    (p : Pool MessageQueue QueueCall) (hr : run (queueCalls config).step (MessageQueue.fresh config) es = some p)
    (hdrop : ∀ e ∈ es, dropsCall e = false) (hdone : ∀ c ∈ p.tasks, c.isReturned = true) :
    ∃ p' stats, run (queueCalls config).step p (statsCall p) = some p' ∧
      p'.tasks[p.tasks.length]? = some (.reported stats) ∧
      es.countP offers = stats.enqueued + stats.dropped + es.countP timesOut ∧
      stats.depth = p.shared.channel.length ∧
      (es.countP offers = stats.enqueued + stats.dropped ∧ stats.depth = p.shared.channel.length ↔
        ∀ e ∈ es, timesOut e = false) := by
  have ha := MessageQueue.Accounted.run hr
  obtain ⟨henqueued, hdequeued, hopen⟩ := (MessageQueue.Counts.run hr).returned ha hdone
  have hoffered := MessageQueue.offered hr hdrop
  rw [hopen] at hoffered
  have hdepth : p.shared.enqueuedCount - p.shared.dequeuedCount = p.shared.channel.length := by
    rw [henqueued, hdequeued, ha.fifo, List.length_append, Nat.add_sub_cancel_left]
  have htimeouts : es.countP timesOut = 0 ↔ ∀ e ∈ es, timesOut e = false := by
    simp only [List.countP_eq_zero, Bool.not_eq_true]
  refine ⟨_, p.shared.stats config, run_statsCall config p, ?_, ?_, hdepth, ?_⟩
  · rw [List.getElem?_append_right (le_refl _), Nat.sub_self]
    rfl
  · simp only [MessageQueue.stats]
    omega
  · rw [← htimeouts]
    simp only [MessageQueue.stats]
    constructor
    · rintro ⟨hcalls, -⟩
      omega
    · intro hzero
      exact ⟨by omega, hdepth⟩

/-- A queue for one message takes one, refuses another at once, and gives the first out. -/
def oneInOneOut : List (Event QueueCallKind QueueEvent) :=
  takesSteps 0 (.enqueue ⟨[1]⟩) 5 ++ takesSteps 1 (.tryEnqueue ⟨[2]⟩) 2 ++ takesSteps 2 .dequeue 6

theorem one_in_one_out_accounted :
    ∃ p, run (queueCalls { maxSize := 1 }).step (MessageQueue.fresh { maxSize := 1 }) oneInOneOut = some p ∧
      ∃ p' stats, run (queueCalls { maxSize := 1 }).step p (statsCall p) = some p' ∧
        p'.tasks[p.tasks.length]? = some (.reported stats) ∧
        oneInOneOut.countP offers = stats.enqueued + stats.dropped + oneInOneOut.countP timesOut ∧
        stats.depth = p.shared.channel.length ∧
        (oneInOneOut.countP offers = stats.enqueued + stats.dropped ∧ stats.depth = p.shared.channel.length ↔
          ∀ e ∈ oneInOneOut, timesOut e = false) := by
  have hrun : ∃ p ∈ run (queueCalls { maxSize := 1 }).step (MessageQueue.fresh { maxSize := 1 }) oneInOneOut,
      ∀ c ∈ p.tasks, c.isReturned = true := by decide
  obtain ⟨p, hr, hdone⟩ := hrun
  exact ⟨p, hr, offered_messages_accounted_iff { maxSize := 1 } oneInOneOut p hr (by decide) hdone⟩

/-- The queue is full, and the second enqueue waits for its timeout: two messages were offered, and one is
accounted for. -/
def secondTimesOut : List (Event QueueCallKind QueueEvent) :=
  takesSteps 0 (.enqueue ⟨[1]⟩) 5 ++ takesSteps 1 (.enqueue ⟨[2]⟩) 1 ++ acts 1 [.timedOut]

theorem timed_out_message_not_accounted :
    secondTimesOut.countP offers = 2 ∧ (∀ e ∈ secondTimesOut, dropsCall e = false) ∧
    ∃ p ∈ run (queueCalls { maxSize := 1 }).step (MessageQueue.fresh { maxSize := 1 }) secondTimesOut,
      (∀ c ∈ p.tasks, c.isReturned = true) ∧
      ∃ p' ∈ run (queueCalls { maxSize := 1 }).step p (statsCall p), p'.tasks[p.tasks.length]? =
        some (.reported { depth := 1, maxSize := 1, enqueued := 1, dequeued := 0, dropped := 0 }) := by
  decide

/-! ## Empty queues -/

/-- Along every run in which a `stats()` reads its counters in step with the messages, a report of an empty queue
is sound: at some moment of the call the queue held no message of an enqueue that had returned. -/
theorem empty_reports_are_sound (config : MessageQueueConfig) (es : List (Event QueueCallKind QueueEvent))
    (hcounts : Along (QueueWatch.step config) QueueWatch.CountsMessages (QueueWatch.fresh config) es) :
    Always (QueueWatch.step config) QueueWatch.SoundReports (QueueWatch.fresh config) es :=
  always_of_preserves (fun _ _ _ h hcounts hs => h.step hcounts hs) (fun _ h => h.reports)
    (QueueWatch.Watches.fresh config) hcounts

/-- A message is dequeued between the two reads. -/
def drainedBetweenReads : List (Event QueueCallKind QueueEvent) :=
  takesSteps 0 (.enqueue ⟨[1]⟩) 5 ++ takesSteps 1 .stats 1 ++ takesSteps 2 .dequeue 6 ++ acts 1 [.go, .go]

theorem drained_between_reads_is_sound :
    Always (QueueWatch.step {}) QueueWatch.SoundReports (QueueWatch.fresh {}) drainedBetweenReads :=
  empty_reports_are_sound {} drainedBetweenReads (by decide)

/-- Between the two reads another enqueue returns and the first message is dequeued. -/
def replacedBetweenReads : List (Event QueueCallKind QueueEvent) :=
  takesSteps 0 (.enqueue ⟨[1]⟩) 5 ++ takesSteps 1 .stats 1 ++ takesSteps 2 (.enqueue ⟨[2]⟩) 5 ++
    takesSteps 3 .dequeue 4 ++ acts 1 [.go, .go]

/-- The first message is dequeued before it is counted as enqueued, and the second one is in the queue. -/
def countedLate : List (Event QueueCallKind QueueEvent) :=
  takesSteps 0 (.enqueue ⟨[1]⟩) 3 ++ takesSteps 1 (.enqueue ⟨[2]⟩) 5 ++ takesSteps 2 .dequeue 4 ++
    takesSteps 3 .stats 3

theorem empty_reports_miss_messages :
    (∃ w ∈ run (QueueWatch.step {}) (QueueWatch.fresh {}) replacedBetweenReads, ¬ w.SoundReports) ∧
    (∃ w ∈ run (QueueWatch.step {}) (QueueWatch.fresh {}) countedLate, ¬ w.SoundReports) := by
  have hreplaced : ∃ w ∈ run (QueueWatch.step {}) (QueueWatch.fresh {}) replacedBetweenReads,
      w.pool.tasks[1]? = some (.reported { depth := 0, maxSize := 1000, enqueued := 1, dequeued := 1, dropped := 0 }) ∧
        w.calm = 1 := by decide
  have hlate : ∃ w ∈ run (QueueWatch.step {}) (QueueWatch.fresh {}) countedLate,
      w.pool.tasks[3]? = some (.reported { depth := 0, maxSize := 1000, enqueued := 1, dequeued := 1, dropped := 0 }) ∧
        w.calm = 2 := by decide
  constructor
  · obtain ⟨w, hr, hreport, hcalm⟩ := hreplaced
    refine ⟨w, hr, fun h => ?_⟩
    have hlt := h 1 _ hreport rfl
    omega
  · obtain ⟨w, hr, hreport, hcalm⟩ := hlate
    refine ⟨w, hr, fun h => ?_⟩
    have hlt := h 3 _ hreport rfl
    omega

end NetworkSystem
