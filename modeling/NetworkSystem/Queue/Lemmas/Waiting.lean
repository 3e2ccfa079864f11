import NetworkSystem.Lib.Quiescence
import NetworkSystem.Queue.Lemmas.Conservation
import NetworkSystem.Queue.Statistics

/-!
# Where the calls of the queue wait

A call that is neither dropped nor timed out comes to its return in at most six steps of its own, or it waits: for
a permit, for the lock of the receiver, or under that lock for a message. The lock is held by one call.
-/

namespace NetworkSystem

open TaskPool Steps

variable {config : MessageQueueConfig} {q q' : MessageQueue} {c c' : QueueCall} {p : Pool MessageQueue QueueCall}

/-! ## Steps that are left -/

namespace QueueCall

/-- At most so many steps of its own are left to the call. -/
def stepsLeft : QueueCall → Nat
  | .entered _ => 6
  | .locking => 5
  | .acquiring _ | .receiving | .tryReceiving => 4
  | .holding _ | .received _ => 3
  | .sent _ | .releasing _ | .loadedEnqueued _ => 2
  | .refusing _ | .counted _ | .unlocking _ | .loadedDequeued _ _ => 1
  | .enqueued _ | .failed _ | .dequeued _ | .reported _ | .dropped => 0

theorem stepsLeft_le (c : QueueCall) : c.stepsLeft ≤ 6 := by
  cases c <;> simp [stepsLeft]

/-- The call has the lock of the receiver. -/
def locksReceiver : QueueCall → Bool
  | .receiving | .tryReceiving | .received _ | .releasing _ | .unlocking _ => true
  | _ => false

end QueueCall

theorem MessageQueue.tryAcquire_stepsLeft (q : MessageQueue) {m : Message} {text : String} :
    (q.tryAcquire m text).2.stepsLeft < 6 := by
  unfold MessageQueue.tryAcquire
  split <;> simp [QueueCall.stepsLeft]

theorem MessageQueue.enter_stepsLeft (config : MessageQueueConfig) (q : MessageQueue) (kind : QueueCallKind) :
    (q.enter config kind).2.stepsLeft < 6 := by
  cases kind with
  | enqueue m =>
      simp only [MessageQueue.enter]
      split
      · exact q.tryAcquire_stepsLeft
      · simp [QueueCall.stepsLeft]
  | tryEnqueue m => exact q.tryAcquire_stepsLeft
  | dequeue => simp [MessageQueue.enter, QueueCall.stepsLeft]
  | tryDequeue =>
      simp only [MessageQueue.enter]
      split <;> simp [QueueCall.stepsLeft]
  | stats => simp [MessageQueue.enter, QueueCall.stepsLeft]

theorem MessageQueue.go_stepsLeft (h : q.go config c = some (q', c')) : c'.stepsLeft < c.stepsLeft := by
  cases c with
  | entered kind =>
      have he : q.enter config kind = (q', c') := Option.some.inj h
      have hlt := q.enter_stepsLeft config kind
      rwa [he] at hlt
  | acquiring m =>
      simp only [MessageQueue.go] at h
      split at h <;> cases h
      simp [QueueCall.stepsLeft]
  | locking =>
      simp only [MessageQueue.go] at h
      split at h <;> cases h
      simp [QueueCall.stepsLeft]
  | holding m =>
      simp only [MessageQueue.go, MessageQueue.send] at h
      split at h <;> cases h
      simp [QueueCall.stepsLeft]
  | receiving =>
      simp only [MessageQueue.go, MessageQueue.recv] at h
      split at h <;> cases h
      simp [QueueCall.stepsLeft]
  | tryReceiving =>
      simp only [MessageQueue.go, MessageQueue.recv] at h
      split at h <;> cases h <;> simp [QueueCall.stepsLeft]
  | refusing _ | sent _ | counted _ | received _ | releasing _ | unlocking _ | loadedEnqueued _
  | loadedDequeued _ _ =>
      cases h
      simp [QueueCall.stepsLeft]
  | enqueued _ | failed _ | dequeued _ | reported _ | dropped => cases h

theorem MessageQueue.callStep_stepsLeft (q : MessageQueue) (c : QueueCall) (e : QueueEvent) (q' : MessageQueue)
    (c' : QueueCall) (he : e = .go) (h : callStep config q c e = some (q', c')) :
    c'.stepsLeft < c.stepsLeft := by
  subst he
  exact go_stepsLeft h

/-! ## The lock of the receiver -/

/-- Whoever takes the lock gives it back. -/
def KeepsLock (q : MessageQueue) (c : QueueCall) (q' : MessageQueue) (c' : QueueCall) : Prop :=
  q'.rxLocked.toNat + c.locksReceiver.toNat = q.rxLocked.toNat + c'.locksReceiver.toNat

theorem MessageQueue.tryAcquire_lock (q : MessageQueue) {m : Message} {text : String}
    (hc : c.locksReceiver = false) : KeepsLock q c (q.tryAcquire m text).1 (q.tryAcquire m text).2 := by
  unfold MessageQueue.tryAcquire KeepsLock
  rw [hc]
  split <;> rfl

theorem MessageQueue.enter_lock (config : MessageQueueConfig) (q : MessageQueue) (kind : QueueCallKind) :
    KeepsLock q (.entered kind) (q.enter config kind).1 (q.enter config kind).2 := by
  cases kind with
  | enqueue m =>
      simp only [MessageQueue.enter]
      split
      · exact q.tryAcquire_lock rfl
      · rfl
  | tryEnqueue m => exact q.tryAcquire_lock rfl
  | dequeue | stats => rfl
  | tryDequeue =>
      simp only [MessageQueue.enter]
      split
      · rfl
      · simp [KeepsLock, QueueCall.locksReceiver, *]

theorem MessageQueue.go_lock (hlock : c.locksReceiver = true → q.rxLocked = true)
    (h : q.go config c = some (q', c')) : KeepsLock q c q' c' := by
  cases c with
  | entered kind =>
      have he : q.enter config kind = (q', c') := Option.some.inj h
      have hkeeps := q.enter_lock config kind
      rwa [he] at hkeeps
  | acquiring m =>
      simp only [MessageQueue.go] at h
      split at h <;> cases h
      rfl
  | locking =>
      simp only [MessageQueue.go] at h
      split at h <;> cases h
      simp [KeepsLock, QueueCall.locksReceiver, *]
  | holding m =>
      simp only [MessageQueue.go, MessageQueue.send] at h
      split at h <;> cases h
      rfl
  | receiving | tryReceiving =>
      simp only [MessageQueue.go, MessageQueue.recv] at h
      split at h <;> cases h <;> rfl
  | unlocking m =>
      cases h
      simp [KeepsLock, QueueCall.locksReceiver, hlock rfl]
  | refusing _ | sent _ | counted _ | received _ | releasing _ | loadedEnqueued _ | loadedDequeued _ _ =>
      cases h
      rfl
  | enqueued _ | failed _ | dequeued _ | reported _ | dropped => cases h

theorem MessageQueue.callStep_lock {e : QueueEvent} (hlock : c.locksReceiver = true → q.rxLocked = true)
    (h : callStep config q c e = some (q', c')) : KeepsLock q c q' c' := by
  cases e with
  | go => exact go_lock hlock h
  | timedOut => cases c <;> cases h; rfl
  | drop =>
      cases c <;> cases h
      · rfl
      · rfl
      · rfl
      · simp [KeepsLock, QueueCall.locksReceiver, hlock rfl]

theorem MessageQueue.lock_held {es : List (Event QueueCallKind QueueEvent)}
    (hr : run (queueCalls config).step (MessageQueue.fresh config) es = some p) :
    p.shared.rxLocked.toNat = p.total fun c => c.locksReceiver.toNat := by
  refine run_invariant (I := fun p : Pool MessageQueue QueueCall =>
    p.shared.rxLocked.toNat = p.total fun c => c.locksReceiver.toNat) ?_ rfl hr
  intro p e p' hp hs
  refine Program.accounts (f := fun q : MessageQueue => q.rxLocked.toNat) ?_ (fun _ => rfl) hs hp
  intro q c e q' c' hle ha
  refine MessageQueue.callStep_lock (fun hc => ?_) ha
  rw [hc] at hle
  exact Bool.toNat_eq_one.mp (le_antisymm q.rxLocked.toNat_le hle)

/-! ## Calls that wait -/

namespace MessageQueue

/-- Every call has come to its end but for enqueues that wait while the queue is full and dequeues that wait while
it is empty. -/
structure OnlyWaits (config : MessageQueueConfig) (p : Pool MessageQueue QueueCall) : Prop where
  waits : ∀ c ∈ p.tasks, c.isReturned = true ∨ c = .dropped ∨ (∃ m, c = .acquiring m) ∨ c = .locking ∨ c = .receiving
  full : ∀ m, .acquiring m ∈ p.tasks → p.shared.channel.length = config.maxSize
  empty : .locking ∈ p.tasks ∨ .receiving ∈ p.tasks → p.shared.channel = []

variable (ha : Accounted config p) (hquiet : ∀ c ∈ p.tasks, p.shared.go config c = none)

include ha hquiet

theorem waits_of_quiet {c : QueueCall} (hc : c ∈ p.tasks) :
    c.isReturned = true ∨ c = .dropped ∨ (∃ m, c = .acquiring m) ∨ c = .locking ∨ c = .receiving := by
  have hnone := hquiet c hc
  cases c with
  | acquiring m => exact .inr (.inr (.inl ⟨m, rfl⟩))
  | locking => exact .inr (.inr (.inr (.inl rfl)))
  | receiving => exact .inr (.inr (.inr (.inr rfl)))
  | enqueued _ | failed _ | dequeued _ | reported _ => exact .inl rfl
  | dropped => exact .inr (.inl rfl)
  | holding m =>
      -- its permit stands for room in the channel
      have hle := le_total_of_mem QueueCall.permits hc
      have hpermits := ha.permits
      simp only [QueueCall.permits_holding] at hle
      simp only [go, send, ite_eq_right_iff, reduceCtorEq, imp_false] at hnone
      omega
  | tryReceiving =>
      simp only [go, recv] at hnone
      split at hnone <;> cases hnone
  | entered _ | refusing _ | sent _ | counted _ | received _ | releasing _ | unlocking _ | loadedEnqueued _
  | loadedDequeued _ _ => cases hnone

/-- No call that is left has a permit. -/
theorem permits_of_quiet : p.total QueueCall.permits = 0 := by
  refine List.sum_eq_zero_iff_forall_eq_nat.mpr ?_
  intro n hn
  obtain ⟨c, hc, rfl⟩ := List.mem_map.mp hn
  rcases waits_of_quiet ha hquiet hc with hreturned | rfl | ⟨m, rfl⟩ | rfl | rfl
  · cases c <;> first | rfl | cases hreturned
  · rfl
  · rfl
  · rfl
  · rfl

theorem OnlyWaits.of_quiet (hlock : p.shared.rxLocked.toNat = p.total fun c => c.locksReceiver.toNat) :
    OnlyWaits config p where
  waits _ hc := waits_of_quiet ha hquiet hc
  full m hm := by
    have hnone := hquiet _ hm
    have hpermits := ha.permits
    rw [permits_of_quiet ha hquiet] at hpermits
    simp only [go, ite_eq_left_iff, reduceCtorEq, imp_false, not_not] at hnone
    omega
  empty hwaits := by
    -- whoever has the lock waits for a message
    have hreceiving : .receiving ∈ p.tasks → p.shared.channel = [] := by
      intro hc
      have hnone := hquiet _ hc
      simp only [go, recv] at hnone
      split at hnone
      · assumption
      · cases hnone
    rcases hwaits with hc | hc
    · have hnone := hquiet _ hc
      simp only [go, ite_eq_left_iff, reduceCtorEq, imp_false, Bool.not_eq_true, Bool.not_eq_false] at hnone
      have hpos : 0 < p.total fun c => c.locksReceiver.toNat := by
        rw [← hlock, hnone]
        exact Nat.one_pos
      obtain ⟨c, hc, hholds⟩ := exists_of_total_pos _ hpos
      rcases waits_of_quiet ha hquiet hc with hreturned | rfl | ⟨m, rfl⟩ | rfl | rfl
      · have hidle : c.locksReceiver = false := by cases c <;> first | rfl | cases hreturned
        rw [hidle] at hholds
        cases hholds
      · cases hholds
      · cases hholds
      · cases hholds
      · exact hreceiving hc
    · exact hreceiving hc

end MessageQueue

end NetworkSystem
