import NetworkSystem.Queue.Lemmas.Conservation
import NetworkSystem.Queue.Statistics

/-!
# The counters of the queue

`QueueCount` sorts the steps of all calls by what they do to the counters. Each counter is the number of calls
that have passed the step where they are counted.
-/

namespace NetworkSystem

open TaskPool Steps

namespace QueueCall

/-- The call was counted as enqueued. -/
def isCounted : QueueCall → Bool
  | .counted _ | .enqueued _ => true
  | _ => false

/-- The call was counted as dequeued. -/
def isCountedOut : QueueCall → Bool
  | .releasing _ | .unlocking (some _) | .dequeued (some _) => true
  | _ => false

/-- The call offers a message, and is neither counted nor given up yet. -/
def isOpen : QueueCall → Bool
  | .entered (.enqueue _) | .entered (.tryEnqueue _) | .acquiring _ | .refusing _ | .holding _ | .sent _ => true
  | _ => false

end QueueCall

/-- What a step does to the counters. -/
inductive QueueCount (q : MessageQueue) (c : QueueCall) : QueueEvent → MessageQueue → QueueCall → Prop
  | quiet {q' : MessageQueue} {c' : QueueCall} (he : q'.enqueuedCount = q.enqueuedCount)
      (hd : q'.dequeuedCount = q.dequeuedCount) (hr : q'.droppedCount = q.droppedCount)
      (hc : c'.isCounted = c.isCounted) (ho : c'.isCountedOut = c.isCountedOut) (hp : c'.isOpen = c.isOpen) :
      QueueCount q c .go q' c'
  | enqueued {m : Message} (hc : c = .sent m) :
      QueueCount q c .go { q with enqueuedCount := q.enqueuedCount + 1 } (.counted m)
  | dequeued {m : Message} (hc : c = .received m) :
      QueueCount q c .go { q with dequeuedCount := q.dequeuedCount + 1 } (.releasing m)
  | refused {text : String} (hc : c = .refusing text) :
      QueueCount q c .go { q with droppedCount := q.droppedCount + 1 } (.failed (.other text))
  | timedOut {m : Message} (hc : c = .acquiring m) :
      QueueCount q c .timedOut q (.failed (.timeout "Enqueue timeout: queue full"))
  | dropped {q' : MessageQueue} (he : q'.enqueuedCount = q.enqueuedCount)
      (hd : q'.dequeuedCount = q.dequeuedCount) (hc : c.isCounted = false) (ho : c.isCountedOut = false) :
      QueueCount q c .drop q' .dropped

variable {config : MessageQueueConfig} {q q' : MessageQueue} {c c' : QueueCall} {e : QueueEvent}

/-! ## The source's steps -/

theorem MessageQueue.tryAcquire_count (q : MessageQueue) {m : Message} {text : String}
    (hc : c.isCounted = false) (ho : c.isCountedOut = false) (hp : c.isOpen = true) :
    QueueCount q c .go (q.tryAcquire m text).1 (q.tryAcquire m text).2 := by
  unfold MessageQueue.tryAcquire
  split <;> exact .quiet rfl rfl rfl hc.symm ho.symm hp.symm

theorem MessageQueue.enter_count (config : MessageQueueConfig) (q : MessageQueue) (kind : QueueCallKind) :
    QueueCount q (.entered kind) .go (q.enter config kind).1 (q.enter config kind).2 := by
  cases kind with
  | enqueue m =>
      simp only [MessageQueue.enter]
      split
      · exact q.tryAcquire_count rfl rfl rfl
      · exact .quiet rfl rfl rfl rfl rfl rfl
  | tryEnqueue m => exact q.tryAcquire_count rfl rfl rfl
  | dequeue => exact .quiet rfl rfl rfl rfl rfl rfl
  | tryDequeue =>
      simp only [MessageQueue.enter]
      split <;> exact .quiet rfl rfl rfl rfl rfl rfl
  | stats => exact .quiet rfl rfl rfl rfl rfl rfl

theorem MessageQueue.recv_count {empty : Option (MessageQueue × QueueCall)} (hc : c.isCounted = false)
    (ho : c.isCountedOut = false) (hp : c.isOpen = false)
    (hempty : ∀ r, empty = some r → QueueCount q c .go r.1 r.2) (h : q.recv empty = some (q', c')) :
    QueueCount q c .go q' c' := by
  unfold MessageQueue.recv at h
  split at h
  · exact hempty _ h
  · cases h
    exact .quiet rfl rfl rfl hc.symm ho.symm hp.symm

theorem MessageQueue.go_count (h : q.go config c = some (q', c')) : QueueCount q c .go q' c' := by
  cases c with
  | entered kind =>
      have he : q.enter config kind = (q', c') := Option.some.inj h
      have hcount := MessageQueue.enter_count config q kind
      rwa [he] at hcount
  | acquiring m =>
      simp only [MessageQueue.go] at h
      split at h
      · cases h
      · cases h; exact .quiet rfl rfl rfl rfl rfl rfl
  | refusing text => cases h; exact .refused rfl
  | holding m =>
      simp only [MessageQueue.go, MessageQueue.send] at h
      split at h
      · cases h; exact .quiet rfl rfl rfl rfl rfl rfl
      · cases h
  | sent m => cases h; exact .enqueued rfl
  | locking =>
      simp only [MessageQueue.go] at h
      split at h
      · cases h
      · cases h; exact .quiet rfl rfl rfl rfl rfl rfl
  | receiving => exact MessageQueue.recv_count rfl rfl rfl (by simp) h
  | tryReceiving =>
      refine MessageQueue.recv_count rfl rfl rfl ?_ h
      intro r hr
      cases hr
      exact .quiet rfl rfl rfl rfl rfl rfl
  | received m => cases h; exact .dequeued rfl
  | releasing m => cases h; exact .quiet rfl rfl rfl rfl rfl rfl
  | unlocking m => cases h; cases m <;> exact .quiet rfl rfl rfl rfl rfl rfl
  | _ => cases h <;> exact .quiet rfl rfl rfl rfl rfl rfl

theorem MessageQueue.callStep_count (h : MessageQueue.callStep config q c e = some (q', c')) :
    QueueCount q c e q' c' := by
  cases e with
  | go => exact MessageQueue.go_count h
  | timedOut =>
      cases c with
      | acquiring m => cases h; exact .timedOut rfl
      | _ => cases h
  | drop =>
      cases c with
      | acquiring | holding | locking | receiving => cases h; exact .dropped rfl rfl rfl rfl
      | _ => cases h

/-! ## The laws, count by count -/

theorem QueueCount.enqueuedCount (h : QueueCount q c e q' c') :
    q'.enqueuedCount + c.isCounted.toNat = q.enqueuedCount + c'.isCounted.toNat := by
  cases h with
  | quiet he hd hr hc ho hp => rw [he, hc]
  | enqueued hc => subst hc; rfl
  | dequeued hc | refused hc | timedOut hc => subst hc; rfl
  | dropped he hd hc ho => rw [he, hc]; rfl

theorem QueueCount.dequeuedCount (h : QueueCount q c e q' c') :
    q'.dequeuedCount + c.isCountedOut.toNat = q.dequeuedCount + c'.isCountedOut.toNat := by
  cases h with
  | quiet he hd hr hc ho hp => rw [hd, ho]
  | dequeued hc => subst hc; rfl
  | enqueued hc | refused hc | timedOut hc => subst hc; rfl
  | dropped he hd hc ho => rw [hd, ho]; rfl

/-- The messages that were offered are counted, or given up after the timeout. -/
theorem QueueCount.offered (h : QueueCount q c e q' c') (hdrop : e ≠ .drop) :
    q'.enqueuedCount + q'.droppedCount + c'.isOpen.toNat + e.timesOut.toNat =
      q.enqueuedCount + q.droppedCount + c.isOpen.toNat := by
  cases h with
  | quiet he hd hr hc ho hp => rw [he, hr, hp]; rfl
  | enqueued hc | refused hc =>
      subst hc
      simp only [QueueCall.isOpen, QueueEvent.timesOut, Bool.toNat_true, Bool.toNat_false]
      omega
  | dequeued hc | timedOut hc => subst hc; rfl
  | dropped => exact absurd rfl hdrop

/-! ## The pool -/

variable {p p' : Pool MessageQueue QueueCall}

structure MessageQueue.Counts (p : Pool MessageQueue QueueCall) : Prop where
  enqueued : p.shared.enqueuedCount = p.total (fun c => c.isCounted.toNat)
  dequeued : p.shared.dequeuedCount = p.total (fun c => c.isCountedOut.toNat)

theorem MessageQueue.Counts.fresh (config : MessageQueueConfig) : Counts (MessageQueue.fresh config) := ⟨rfl, rfl⟩

theorem MessageQueue.Counts.step (h : Counts p) {e : Event QueueCallKind QueueEvent}
    (hs : (queueCalls config).step p e = some p') : Counts p' where
  enqueued := Program.accounts (fun _ _ _ _ _ _ ha => (MessageQueue.callStep_count ha).enqueuedCount)
    (fun _ => rfl) hs h.enqueued
  dequeued := Program.accounts (fun _ _ _ _ _ _ ha => (MessageQueue.callStep_count ha).dequeuedCount)
    (fun _ => rfl) hs h.dequeued

theorem MessageQueue.Counts.run {es : List (Event QueueCallKind QueueEvent)}
    (hr : run (queueCalls config).step (MessageQueue.fresh config) es = some p) : Counts p :=
  run_invariant (fun _ _ _ h hs => h.step hs) (.fresh config) hr

/-- The messages offered so far are counted, given up after a timeout, or still open. -/
theorem MessageQueue.offered {es : List (Event QueueCallKind QueueEvent)}
    (hr : run (queueCalls config).step (MessageQueue.fresh config) es = some p)
    (hdrop : ∀ e ∈ es, dropsCall e = false) :
    p.shared.enqueuedCount + p.shared.droppedCount + p.tasks.countP QueueCall.isOpen + es.countP timesOut =
      es.countP offers := by
  have haccrues := run_accrues (p := offers) (q := timesOut) (D := fun e => dropsCall e = false)
    (f := fun p : Pool MessageQueue QueueCall => p.shared.enqueuedCount + p.shared.droppedCount +
      p.total (fun c => c.isOpen.toNat)) ?_ hdrop hr
  · rw [Pool.total_eq_countP, Pool.total_eq_countP] at haccrues
    rw [haccrues]
    exact Nat.zero_add _
  · intro p e p' hdrop hs
    have hstep := Program.accrues (f := fun q : MessageQueue => q.enqueuedCount + q.droppedCount)
      (g := fun c : QueueCall => c.isOpen.toNat) (l := fun a => a.timesOut.toNat) ?_ hs
    · cases e with
      | spawn kind => cases kind <;> exact hstep
      | act i a => exact hstep
    · rintro i a q c q' c' rfl ha
      refine (MessageQueue.callStep_count ha).offered ?_
      rintro rfl
      cases hdrop

/-- What was counted as dequeued was received. -/
theorem MessageQueue.Counts.dequeued_le (h : Counts p) (ha : Accounted config p) :
    p.shared.dequeuedCount ≤ p.shared.received.length := by
  rw [h.dequeued, Pool.total_eq_countP, ha.received_length]
  refine List.countP_mono_left fun c _ hc => ?_
  unfold QueueCall.isCountedOut at hc
  split at hc
  · rfl
  · rfl
  · rfl
  · cases hc

/-! ## States with no call in progress -/

/-- What `stats()` reports where nothing else runs. -/
def MessageQueue.stats (config : MessageQueueConfig) (q : MessageQueue) : MessageQueueStats where
  depth := q.enqueuedCount - q.dequeuedCount
  maxSize := config.maxSize
  enqueued := q.enqueuedCount
  dequeued := q.dequeuedCount
  dropped := q.droppedCount

theorem step_last {tasks : List QueueCall} {a : QueueEvent} :
    (queueCalls config).step ⟨q, tasks ++ [c]⟩ (.act tasks.length a) =
      (MessageQueue.callStep config q c a).map fun r => ⟨r.1, tasks ++ [r.2]⟩ := by
  simp [Program.step, queueCalls]

theorem run_statsCall (config : MessageQueueConfig) (p : Pool MessageQueue QueueCall) :
    run (queueCalls config).step p (statsCall p) =
      some ⟨p.shared, p.tasks ++ [.reported (p.shared.stats config)]⟩ := by
  have hload : (queueCalls config).step ⟨p.shared, p.tasks ++ [.entered .stats]⟩ (.act p.tasks.length .go) =
      some ⟨p.shared, p.tasks ++ [.loadedEnqueued p.shared.enqueuedCount]⟩ := step_last
  have hload' : (queueCalls config).step ⟨p.shared, p.tasks ++ [.loadedEnqueued p.shared.enqueuedCount]⟩
      (.act p.tasks.length .go) =
      some ⟨p.shared, p.tasks ++ [.loadedDequeued p.shared.enqueuedCount p.shared.dequeuedCount]⟩ := step_last
  have hreport : (queueCalls config).step
      ⟨p.shared, p.tasks ++ [.loadedDequeued p.shared.enqueuedCount p.shared.dequeuedCount]⟩
      (.act p.tasks.length .go) = some ⟨p.shared, p.tasks ++ [.reported (p.shared.stats config)]⟩ := step_last
  refine run_cons_eq_some.mpr ⟨_, Program.step_spawn, ?_⟩
  refine run_cons_eq_some.mpr ⟨_, hload, ?_⟩
  refine run_cons_eq_some.mpr ⟨_, hload', ?_⟩
  exact run_cons_eq_some.mpr ⟨_, hreport, rfl⟩

/-- Every call that has returned without a message open has been counted in both directions. -/
theorem MessageQueue.Counts.returned (h : Counts p) (ha : Accounted config p)
    (hdone : ∀ c ∈ p.tasks, c.isReturned = true) :
    p.shared.enqueuedCount = p.shared.sent.length ∧ p.shared.dequeuedCount = p.shared.received.length ∧
      p.tasks.countP QueueCall.isOpen = 0 := by
  refine ⟨?_, ?_, ?_⟩
  · rw [h.enqueued, Pool.total_eq_countP, ha.sent_length]
    refine List.countP_congr fun c hc => ?_
    have hreturned := hdone c hc
    cases c with
    | enqueued | failed | dequeued | reported => simp [QueueCall.isCounted, QueueCall.put]
    | _ => cases hreturned
  · rw [h.dequeued, Pool.total_eq_countP, ha.received_length]
    refine List.countP_congr fun c hc => ?_
    have hreturned := hdone c hc
    cases c with
    | dequeued message => cases message <;> simp [QueueCall.isCountedOut, QueueCall.taken]
    | enqueued | failed | reported => simp [QueueCall.isCountedOut, QueueCall.taken]
    | _ => cases hreturned
  · rw [List.countP_eq_zero]
    intro c hc hopen
    have hreturned := hdone c hc
    cases c with
    | enqueued | failed | dequeued | reported => cases hopen
    | _ => cases hreturned

end NetworkSystem
