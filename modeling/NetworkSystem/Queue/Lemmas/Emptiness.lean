import NetworkSystem.Queue.Lemmas.Counters

/-!
# Reports of an empty queue

A `stats()` that reads no larger a counter of enqueued messages than of dequeued ones has read the first of them
before a message was counted that was received, or that is in the queue. There are as many messages counted as it
has read, and each received message and one more would have to be among them.
-/

namespace NetworkSystem

open TaskPool Steps

variable {config : MessageQueueConfig} {q q' : MessageQueue} {c c' : QueueCall} {a : QueueEvent}

/-! ## Steps of a call -/

theorem MessageQueue.holdsPermit_eq_true (hc : c.holdsPermit = true) : ∃ m, c = .holding m := by
  cases c with
  | holding m => exact ⟨m, rfl⟩
  | _ => cases hc

/-- Only a call that holds a permit sends, and when it goes on it does. -/
theorem MessageQueue.callStep_sent (h : callStep config q c a = some (q', c')) :
    (a = .go ∧ c.holdsPermit = true ∧ ∃ m, q'.sent = q.sent ++ [m] ∧ c'.put = some m) ∨
      (¬ (a = .go ∧ c.holdsPermit = true) ∧ q'.sent = q.sent) := by
  by_cases hsend : a = .go ∧ c.holdsPermit = true
  · obtain ⟨rfl, hc⟩ := hsend
    obtain ⟨m, rfl⟩ := holdsPermit_eq_true hc
    simp only [callStep, go, send] at h
    split at h
    · cases h
      exact Or.inl ⟨rfl, hc, m, rfl, rfl⟩
    · cases h
  · refine Or.inr ⟨hsend, ?_⟩
    have heffect := callStep_effect h
    generalize hq : q' = q₁ at heffect
    generalize hc : c' = c₁ at heffect
    cases heffect with
    | quiet hp hch hs => exact hs
    | send hc' =>
        subst hc' hc
        cases a with
        | go => exact absurd ⟨rfl, rfl⟩ hsend
        | timedOut => cases h
        | drop => cases h
    | _ => rfl

/-- A call that has sent stays one that has. -/
theorem MessageQueue.callStep_put (h : callStep config q c a = some (q', c')) (hput : c.put.isSome = true) :
    c'.put.isSome = true := by
  cases callStep_effect h with
  | quiet hp hch hs hr hh ho hput' => rwa [hput']
  | acquire hp hh ho hnone | receive hh ho hnone =>
      rw [hnone] at hput
      cases hput
  | send hc | release hc | giveBack hc =>
      subst hc
      cases hput

/-- The call has read both counters. -/
def QueueCall.hasRead : QueueCall → Bool
  | .loadedDequeued _ _ | .reported _ => true
  | _ => false

/-- How a step can lead to a call that has read both counters. -/
inductive StatsStep (config : MessageQueueConfig) (q : MessageQueue) :
    QueueEvent → QueueCall → MessageQueue → QueueCall → Prop
  | other {a : QueueEvent} {c : QueueCall} {q' : MessageQueue} {c' : QueueCall} (hc' : c'.hasRead = false) :
      StatsStep config q a c q' c'
  | loads (enqueued : Nat) :
      StatsStep config q .go (.loadedEnqueued enqueued) q (.loadedDequeued enqueued q.dequeuedCount)
  | reports (enqueued dequeued : Nat) :
      StatsStep config q .go (.loadedDequeued enqueued dequeued) q (.reported
        { depth := enqueued - dequeued, maxSize := config.maxSize, enqueued := enqueued,
          dequeued := dequeued, dropped := q.droppedCount })

theorem MessageQueue.tryAcquire_stats (q : MessageQueue) {m : Message} {text : String} :
    StatsStep config q .go c (q.tryAcquire m text).1 (q.tryAcquire m text).2 := by
  unfold tryAcquire
  split <;> exact .other rfl

theorem MessageQueue.enter_stats (config : MessageQueueConfig) (q : MessageQueue) (kind : QueueCallKind) :
    StatsStep config q .go (.entered kind) (q.enter config kind).1 (q.enter config kind).2 := by
  cases kind with
  | enqueue m =>
      simp only [enter]
      split
      · exact q.tryAcquire_stats
      · exact .other rfl
  | tryEnqueue m => exact q.tryAcquire_stats
  | tryDequeue =>
      simp only [enter]
      split <;> exact .other rfl
  | _ => exact .other rfl

theorem MessageQueue.callStep_stats (h : callStep config q c a = some (q', c')) : StatsStep config q a c q' c' := by
  cases a with
  | go =>
      cases c with
      | entered kind =>
          have henter : q.enter config kind = (q', c') := Option.some.inj h
          have hstats := enter_stats config q kind
          rwa [henter] at hstats
      | loadedEnqueued enqueued => cases h; exact .loads enqueued
      | loadedDequeued enqueued dequeued => cases h; exact .reports enqueued dequeued
      | acquiring | holding | locking =>
          simp only [callStep, go, send] at h
          split at h <;> cases h
          exact .other rfl
      | receiving | tryReceiving =>
          simp only [callStep, go, recv] at h
          split at h <;> cases h <;> exact .other rfl
      | _ => cases h <;> exact .other rfl
  | timedOut =>
      cases c with
      | acquiring m => cases h; exact .other rfl
      | _ => cases h
  | drop =>
      cases c with
      | acquiring | holding | locking | receiving => cases h; exact .other rfl
      | _ => cases h

namespace QueueWatch

variable {w w' : QueueWatch} {e : Event QueueCallKind QueueEvent} {p' : Pool MessageQueue QueueCall} {i k : Nat}

/-! ## What the watch notes -/

@[simp] theorem noteCalm_pool : w.noteCalm.pool = w.pool := by
  unfold noteCalm
  split <;> rfl

@[simp] theorem noteCalm_senders : w.noteCalm.senders = w.senders := by
  unfold noteCalm
  split <;> rfl

theorem noteCalm_calm (h : w.isCalm = true) : w.noteCalm.calm = w.pool.tasks.length := by
  unfold noteCalm
  rw [if_pos h]

theorem noteCalm_mono (h : w.calm ≤ w.pool.tasks.length) :
    w.calm ≤ w.noteCalm.calm ∧ w.noteCalm.calm ≤ w.pool.tasks.length := by
  unfold noteCalm
  split
  · exact ⟨h, le_refl _⟩
  · exact ⟨le_refl _, h⟩

theorem step_eq_some (hs : step config w e = some w') : ∃ p', (queueCalls config).step w.pool e = some p' ∧
    w' = noteCalm ⟨p', w.senders ++ w.moved QueueCall.holdsPermit e, w.counted ++ w.moved QueueCall.isSent e,
      w.calm⟩ := by
  obtain ⟨p', hp, rfl⟩ := Option.map_eq_some_iff.mp hs
  exact ⟨p', hp, rfl⟩

theorem moved_act {stage : QueueCall → Bool} (hi : w.pool.tasks[i]? = some c) :
    w.moved stage (.act i a) = if a = .go ∧ stage c = true then [i] else [] := by
  cases a with
  | go =>
      simp only [moved, hi, Option.any_some, true_and]
  | timedOut | drop => simp only [moved, reduceCtorEq, false_and, if_false]

theorem length_step (hp : (queueCalls config).step w.pool e = some p') : w.pool.tasks.length ≤ p'.tasks.length := by
  cases e with
  | spawn kind =>
      cases hp
      simp
  | act i a =>
      obtain ⟨c, q', c', hi, ha, rfl⟩ := Program.step_act.mp hp
      rw [List.length_set]

theorem moved_spawn {stage : QueueCall → Bool} {kind : QueueCallKind} : w.moved stage (.spawn kind) = [] := rfl

/-! ## The senders -/

/-- Every message in the history of the channel has a call that sent it, and each call sent one. -/
structure Sends (senders : List Nat) (p : Pool MessageQueue QueueCall) : Prop where
  length : senders.length = p.shared.sent.length
  nodup : senders.Nodup
  put : ∀ i ∈ senders, ∃ c, p.tasks[i]? = some c ∧ c.put.isSome = true

variable {senders : List Nat} {p : Pool MessageQueue QueueCall}

/-- A step of a call that does not send. -/
theorem Sends.quiet (h : Sends senders p) (hi : p.tasks[i]? = some c)
    (ha : MessageQueue.callStep config p.shared c a = some (q', c')) (hsent : q'.sent = p.shared.sent) :
    Sends senders ⟨q', p.tasks.set i c'⟩ where
  length := by rw [h.length, hsent]
  nodup := h.nodup
  put := by
    intro j hj
    obtain ⟨d, hd, hput⟩ := h.put j hj
    by_cases hij : i = j
    · subst hij
      rw [hi, Option.some.injEq] at hd
      subst hd
      exact ⟨c', List.getElem?_set_self (List.getElem?_eq_some_iff.mp hi).1, MessageQueue.callStep_put ha hput⟩
    · exact ⟨d, by rw [List.getElem?_set_ne hij, hd], hput⟩

/-- A call that sends has not sent before. -/
theorem Sends.sends (h : Sends senders p) {m m' : Message} (hi : p.tasks[i]? = some (.holding m))
    (hsent : q'.sent = p.shared.sent ++ [m']) (hput : c'.put = some m') :
    Sends (senders ++ [i]) ⟨q', p.tasks.set i c'⟩ := by
  have hnew : i ∉ senders := by
    intro hmem
    obtain ⟨d, hd, hdput⟩ := h.put i hmem
    rw [hi, Option.some.injEq] at hd
    rw [← hd] at hdput
    cases hdput
  refine ⟨?_, ?_, ?_⟩
  · rw [List.length_append, h.length, hsent, List.length_append]
    rfl
  · refine List.nodup_append.mpr ⟨h.nodup, List.nodup_singleton i, ?_⟩
    rintro j hj j' hj' rfl
    rw [List.mem_singleton.mp hj'] at hj
    exact hnew hj
  · intro j hj
    rcases List.mem_append.mp hj with hj | hj
    · obtain ⟨d, hd, hdput⟩ := h.put j hj
      have hij : i ≠ j := by
        rintro rfl
        exact hnew hj
      exact ⟨d, by rw [List.getElem?_set_ne hij, hd], hdput⟩
    · rw [List.mem_singleton.mp hj]
      exact ⟨c', List.getElem?_set_self (List.getElem?_eq_some_iff.mp hi).1, by rw [hput]; rfl⟩

theorem Sends.step (h : Sends w.senders w.pool) (hp : (queueCalls config).step w.pool e = some p') :
    Sends (w.senders ++ w.moved QueueCall.holdsPermit e) p' := by
  cases e with
  | spawn kind =>
      cases hp
      rw [moved_spawn, List.append_nil]
      refine ⟨h.length, h.nodup, fun i hi => ?_⟩
      obtain ⟨c, hc, hput⟩ := h.put i hi
      exact ⟨c, by rw [List.getElem?_append_left (List.getElem?_eq_some_iff.mp hc).1, hc], hput⟩
  | act i a =>
      obtain ⟨c, q', c', hi, ha, rfl⟩ := Program.step_act.mp hp
      rw [moved_act hi]
      rcases MessageQueue.callStep_sent ha with ⟨rfl, hc, m, hsent, hm⟩ | ⟨hno, hsent⟩
      · obtain ⟨m', rfl⟩ := MessageQueue.holdsPermit_eq_true hc
        rw [if_pos ⟨rfl, hc⟩]
        exact h.sends hi hsent hm
      · rw [if_neg hno, List.append_nil]
        exact h.quiet hi ha hsent

/-! ## The messages that a report has counted -/

/-- A message of a returned enqueue in the queue and the received ones are different messages. -/
theorem Sends.queued_nodup (h : Sends w.senders w.pool) (hi : i ∈ w.queued) : (i :: w.taken).Nodup := by
  have hnodup := h.nodup
  rw [← List.take_append_drop w.pool.shared.received.length w.senders, List.nodup_append] at hnodup
  refine List.nodup_cons.mpr ⟨fun hmem => ?_, hnodup.1⟩
  exact hnodup.2.2 i hmem i hi rfl

/-- Among as many messages as were received there is no room for these and one more. -/
theorem Sends.not_all_counted (h : Sends w.senders w.pool) (ha : MessageQueue.Accounted config w.pool)
    {enqueued : Nat} (hle : enqueued ≤ w.pool.shared.received.length) (hi : i ∈ w.queued) :
    ¬ ∀ j ∈ i :: w.taken, j ∈ w.counted.take enqueued := by
  intro hall
  have hlength := (List.subperm_of_subset (h.queued_nodup hi) hall).length_le
  have hsent : w.pool.shared.received.length ≤ w.senders.length := by
    rw [h.length, ha.fifo, List.length_append]
    omega
  rw [List.length_cons, taken, List.length_take, List.length_take] at hlength
  omega

/-! ## The invariant -/

structure Watches (config : MessageQueueConfig) (w : QueueWatch) : Prop where
  accounted : MessageQueue.Accounted config w.pool
  counts : MessageQueue.Counts w.pool
  sends : Sends w.senders w.pool
  calm_le : w.calm ≤ w.pool.tasks.length
  loaded : ∀ (k : Nat) (enqueued dequeued : Nat), w.pool.tasks[k]? = some (.loadedDequeued enqueued dequeued) →
    enqueued ≤ dequeued → k < w.calm
  reports : w.SoundReports

theorem Watches.fresh (config : MessageQueueConfig) : Watches config (QueueWatch.fresh config) where
  accounted := .fresh config
  counts := .fresh config
  sends := ⟨rfl, List.nodup_nil, by simp [QueueWatch.fresh]⟩
  calm_le := le_refl _
  loaded k _ _ hk := by simp [QueueWatch.fresh, MessageQueue.fresh] at hk
  reports k _ hk := by simp [QueueWatch.fresh, MessageQueue.fresh] at hk

/-- A call that reads the second counter no smaller than the first finds a calm queue, or found one before. -/
theorem Watches.loads (h : Watches config w) (hcounts : w.CountsMessages (.act k .go)) {enqueued : Nat}
    (hk : w.pool.tasks[k]? = some (.loadedEnqueued enqueued)) (hle : enqueued ≤ w.pool.shared.dequeuedCount) :
    k < w.calm ∨ w.isCalm = true := by
  by_cases hcalm : w.calm ≤ k
  · refine Or.inr (List.all_eq_true.mpr fun i hi => ?_)
    rw [Bool.not_eq_true', Bool.eq_false_iff]
    intro hreturned
    have hreceived := h.counts.dequeued_le h.accounted
    exact h.sends.not_all_counted h.accounted (hle.trans hreceived) hi (hcounts k enqueued rfl hk hcalm i hi hreturned)
  · exact Or.inl (Nat.lt_of_not_le hcalm)

/-- A step of a call that is not an enqueue on its way to return leaves a calm queue calm. -/
theorem isCalm_of_reads (hk : w.pool.tasks[k]? = some c) (hc' : c'.hasRead = true) {counted : List Nat} {calm : Nat}
    (h : w.isCalm = true) : isCalm ⟨⟨w.pool.shared, w.pool.tasks.set k c'⟩, w.senders, counted, calm⟩ = true := by
  refine List.all_eq_true.mpr fun i hi => ?_
  have hi' := List.all_eq_true.mp h i hi
  by_cases hik : k = i
  · subst hik
    have hset : (w.pool.tasks.set k c')[k]? = some c' := List.getElem?_set_self (List.getElem?_eq_some_iff.mp hk).1
    cases c' with
    | loadedDequeued | reported => simp only [returned, hset, Bool.not_false]
    | _ => cases hc'
  · simpa only [returned, List.getElem?_set_ne hik] using hi'

/-- A call that has read both counters had read them before, or reads the second one or reports now. -/
theorem read_cases (hp : (queueCalls config).step w.pool e = some p') (hk : p'.tasks[k]? = some c')
    (hc' : c'.hasRead = true) : w.pool.tasks[k]? = some c' ∨
      ∃ c, w.pool.tasks[k]? = some c ∧ e = .act k .go ∧ p' = ⟨w.pool.shared, w.pool.tasks.set k c'⟩ ∧
        StatsStep config w.pool.shared .go c w.pool.shared c' := by
  cases e with
  | spawn kind =>
      cases hp
      rcases getElem?_snoc_cases hk with hk | ⟨-, rfl⟩
      · exact Or.inl hk
      · cases hc'
  | act i a =>
      obtain ⟨c, q', d, hi, ha, rfl⟩ := Program.step_act.mp hp
      rcases getElem?_set_cases hk with ⟨rfl, rfl⟩ | ⟨-, hk⟩
      · have hstats := MessageQueue.callStep_stats ha
        cases hstats with
        | other hread =>
            rw [hread] at hc'
            cases hc'
        | loads enqueued => exact Or.inr ⟨_, hi, rfl, rfl, .loads enqueued⟩
        | reports enqueued dequeued => exact Or.inr ⟨_, hi, rfl, rfl, .reports enqueued dequeued⟩
      · exact Or.inl hk

/-- Where the counters were read in step, a step keeps what is known of the calls that have read them. -/
theorem Watches.step (h : Watches config w) (hcounts : w.CountsMessages e) (hs : step config w e = some w') :
    Watches config w' := by
  obtain ⟨p', hp, rfl⟩ := step_eq_some hs
  obtain ⟨hcalm, hcalm_le⟩ := noteCalm_mono
    (w := ⟨p', w.senders ++ w.moved QueueCall.holdsPermit e, w.counted ++ w.moved QueueCall.isSent e, w.calm⟩)
    (h.calm_le.trans (length_step hp))
  refine ⟨?_, ?_, ?_, ?_, ?_, ?_⟩
  · rw [noteCalm_pool]
    exact h.accounted.step hp
  · rw [noteCalm_pool]
    exact h.counts.step hp
  · rw [noteCalm_pool, noteCalm_senders]
    exact h.sends.step hp
  · rwa [noteCalm_pool]
  · intro k enqueued dequeued hk hle
    rw [noteCalm_pool] at hk
    rcases read_cases hp hk rfl with hk | ⟨c, hc, rfl, rfl, hstats⟩
    · exact (h.loaded k enqueued dequeued hk hle).trans_le hcalm
    · cases hstats with
      | other hread => cases hread
      | loads =>
          rcases h.loads hcounts hc hle with hlt | hall
          · exact hlt.trans_le hcalm
          · rw [moved_act hc, if_neg (by simp [QueueCall.holdsPermit]), List.append_nil]
            rw [noteCalm_calm (isCalm_of_reads hc rfl hall)]
            exact (List.getElem?_eq_some_iff.mp hk).1
  · intro k stats hk hempty
    rw [noteCalm_pool] at hk
    rcases read_cases hp hk rfl with hk | ⟨c, hc, rfl, rfl, hstats⟩
    · exact (h.reports k stats hk hempty).trans_le hcalm
    · cases hstats with
      | other hread => cases hread
      | reports enqueued dequeued =>
          have hdepth : enqueued - dequeued = 0 := eq_of_beq hempty
          exact (h.loaded k enqueued dequeued hc (Nat.sub_eq_zero_iff_le.mp hdepth)).trans_le hcalm

end QueueWatch

end NetworkSystem
