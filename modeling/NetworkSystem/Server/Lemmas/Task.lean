import NetworkSystem.Server.SessionTask

/-!
# The steps of a session task

`TaskStep` has one rule for each kind of step of a session task. What the task adds to the connection
count and to the gauge, which stages come with which callbacks, and where an aborted task can get to are
read off these rules.
-/

namespace NetworkSystem

/-- The steps between two stages that touch nothing but the stage. -/
def TaskStage.quietTo : TaskStage → TaskStage → Bool
  | .onConnected, .looping | .onMessage, .looping | .looping, .receiving | .receiving, .reading
  | .looping, .broken | .receiving, .broken | .reading, .broken | .onDisconnected, .delisting => true
  | _, _ => false

inductive TaskStep (i : Nat) (b : Books) (t : SessionTask) : TaskEvent → Books → SessionTask → Prop
  | poll (hl : t.live = true) (hp : t.polled = false) (ha : t.aborted = false) :
      TaskStep i b t .poll b { t with polled := true }
  | suspend (hp : t.polled = true) (hw : t.stage.awaits = true) :
      TaskStep i b t .suspend b { t with polled := false }
  | quiet {e : TaskEvent} {stage : TaskStage} (hp : t.polled = true) (hq : t.stage.quietTo stage = true)
      (he : e = .go ∨ e = .receiveFailed) : TaskStep i b t e b { t with stage := stage }
  | create (hp : t.polled = true) (hs : t.stage = .spawned) :
      TaskStep i b t .go b { t with stage := .created, session := some {} }
  | list (hp : t.polled = true) (hs : t.stage = .created) :
      TaskStep i b t .go { b with sessions := b.sessions ++ [i] } { t with stage := .listed }
  | connect (hp : t.polled = true) (hs : t.stage = .listed) :
      TaskStep i b t .go (t.callback b .connected .onConnected).1 (t.callback b .connected .onConnected).2
  | message {m : Message} (hp : t.polled = true) (hs : t.stage = .reading) :
      TaskStep i b t (.receive m) (t.callback b (.message m) .onMessage).1
        (t.callback b (.message m) .onMessage).2
  | disconnect (hp : t.polled = true) (hs : t.stage = .broken) :
      TaskStep i b t .go (t.callback b .disconnected .onDisconnected).1
        (t.callback b .disconnected .onDisconnected).2
  | delist (hp : t.polled = true) (hs : t.stage = .delisting) :
      TaskStep i b t .go { b with sessions := b.sessions.filter (· != i) } { t with stage := .uncounting }
  | uncount (hp : t.polled = true) (hs : t.stage = .uncounting) :
      TaskStep i b t .go (t.finish { b with connectionCount := b.connectionCount - 1 } .finished).1
        (t.finish { b with connectionCount := b.connectionCount - 1 } .finished).2
  | panic (hp : t.polled = true) (hc : t.stage.inCallback = true) :
      TaskStep i b t .panic (t.finish b .panicked).1 (t.finish b .panicked).2
  | overflow (hp : t.polled = true) (hs : t.stage = .receiving) :
      TaskStep i b t .overflow (t.finish b .panicked).1 (t.finish b .panicked).2
  | cancel (hl : t.live = true) (hp : t.polled = false) (ha : t.aborted = true) :
      TaskStep i b t .cancel (t.finish b .cancelled).1 (t.finish b .cancelled).2

variable {readTimeout i : Nat} {b b' : Books} {t t' : SessionTask} {e : TaskEvent}

theorem SessionTask.go_step (hp : t.polled = true) (h : t.go readTimeout i b = some (b', t')) :
    TaskStep i b t .go b' t' := by
  unfold SessionTask.go at h
  cases hs : t.stage with
  | spawned => rw [hs] at h; cases h; exact .create hp hs
  | created => rw [hs] at h; cases h; exact .list hp hs
  | listed => rw [hs] at h; cases h; exact .connect hp hs
  | onConnected => rw [hs] at h; cases h; exact .quiet hp (by rw [hs]; rfl) (Or.inl rfl)
  | onMessage => rw [hs] at h; cases h; exact .quiet hp (by rw [hs]; rfl) (Or.inl rfl)
  | looping =>
      rw [hs] at h
      cases h
      refine .quiet hp ?_ (Or.inl rfl)
      rw [hs]
      cases t.session.any SessionIo.active <;> rfl
  | receiving =>
      simp only [hs] at h
      split at h
      · split at h
        · cases h
        · cases h; exact .quiet hp (by rw [hs]; rfl) (Or.inl rfl)
      · cases h; exact .quiet hp (by rw [hs]; rfl) (Or.inl rfl)
  | broken => rw [hs] at h; cases h; exact .disconnect hp hs
  | onDisconnected => rw [hs] at h; cases h; exact .quiet hp (by rw [hs]; rfl) (Or.inl rfl)
  | delisting => rw [hs] at h; cases h; exact .delist hp hs
  | uncounting => rw [hs] at h; cases h; exact .uncount hp hs
  | _ => rw [hs] at h; cases h

theorem SessionTask.step_step (h : t.step readTimeout i b e = some (b', t')) : TaskStep i b t e b' t' := by
  cases e with
  | poll =>
      simp only [SessionTask.step, Option.ite_none_right_eq_some, Bool.and_eq_true,
        Bool.not_eq_true'] at h
      obtain ⟨⟨⟨hl, hp⟩, ha⟩, h⟩ := h
      cases h
      exact .poll hl hp ha
  | suspend =>
      simp only [SessionTask.step, Option.ite_none_right_eq_some, Bool.and_eq_true] at h
      obtain ⟨⟨hp, hw⟩, h⟩ := h
      cases h
      exact .suspend hp hw
  | go =>
      simp only [SessionTask.step, Option.ite_none_right_eq_some] at h
      exact SessionTask.go_step h.1 h.2
  | receive m =>
      simp only [SessionTask.step, Option.ite_none_right_eq_some, Bool.and_eq_true, beq_iff_eq] at h
      obtain ⟨⟨hp, hs⟩, h⟩ := h
      cases h
      exact .message hp hs
  | receiveFailed =>
      simp only [SessionTask.step, Option.ite_none_right_eq_some, Bool.and_eq_true, Bool.or_eq_true,
        beq_iff_eq] at h
      obtain ⟨⟨hp, hs⟩, h⟩ := h
      cases h
      refine .quiet hp ?_ (Or.inr rfl)
      rcases hs with hs | hs <;> rw [hs] <;> rfl
  | panic =>
      simp only [SessionTask.step, Option.ite_none_right_eq_some, Bool.and_eq_true] at h
      obtain ⟨⟨hp, hc⟩, h⟩ := h
      cases h
      exact .panic hp hc
  | overflow =>
      simp only [SessionTask.step, Option.ite_none_right_eq_some, Bool.and_eq_true, beq_iff_eq] at h
      obtain ⟨⟨⟨⟨hp, hs⟩, -⟩, -⟩, h⟩ := h
      cases h
      exact .overflow hp hs
  | cancel =>
      simp only [SessionTask.step, Option.ite_none_right_eq_some, Bool.and_eq_true,
        Bool.not_eq_true'] at h
      obtain ⟨⟨⟨hl, hp⟩, ha⟩, h⟩ := h
      cases h
      exact .cancel hl hp ha

/-- A `read_timeout` of at most a third of `Duration::MAX` lets no `receive` panic. -/
theorem SessionTask.step_overflow (h : t.step readTimeout i b .overflow = some (b', t')) :
    durationMax < readTimeout * 3 := by
  simp only [SessionTask.step, Option.ite_none_right_eq_some, Bool.and_eq_true] at h
  exact of_decide_eq_true h.1.2

/-! ## Phases -/

/-- A task is ahead of its callbacks, between the outer two, behind them, or has ended. -/
inductive TaskPhase where
  | before
  | during
  | after
  | ended
  deriving DecidableEq

def TaskStage.phase : TaskStage → TaskPhase
  | .spawned | .created | .listed => .before
  | .onConnected | .looping | .receiving | .reading | .onMessage | .broken => .during
  | .onDisconnected | .delisting | .uncounting => .after
  | .finished | .cancelled | .panicked => .ended

theorem TaskStage.quietTo_phase {a b : TaskStage} (h : a.quietTo b = true) :
    b.phase = a.phase ∧ a.phase ≠ .before ∧ a.phase ≠ .ended := by
  unfold TaskStage.quietTo at h
  split at h
  all_goals first | exact ⟨rfl, nofun, nofun⟩ | cases h

theorem TaskStage.ended_iff {a : TaskStage} : a.ended = true ↔ a.phase = .ended := by
  cases a <;> simp [TaskStage.ended, TaskStage.phase]

theorem SessionTask.live_iff : t.live = true ↔ t.stage.phase ≠ .ended := by
  rw [SessionTask.live, Bool.not_eq_true', ← Bool.not_eq_true, TaskStage.ended_iff]

theorem SessionTask.live_eq_false : t.live = false ↔ t.stage.phase = .ended := by
  rw [SessionTask.live, Bool.not_eq_false', TaskStage.ended_iff]

theorem TaskStage.awaits_live {a : TaskStage} (h : a.awaits = true) : a.phase ≠ .ended := by
  cases a with
  | onConnected | receiving | reading | onMessage | onDisconnected => exact nofun
  | _ => cases h

theorem TaskStage.inCallback_live {a : TaskStage} (h : a.inCallback = true) : a.phase ≠ .ended := by
  cases a with
  | onConnected | onMessage | onDisconnected => exact nofun
  | _ => cases h

theorem TaskStep.live (h : TaskStep i b t e b' t') : t.live = true := by
  rw [SessionTask.live_iff]
  cases h with
  | poll hl hp ha => exact SessionTask.live_iff.mp hl
  | suspend hp hw => exact TaskStage.awaits_live hw
  | quiet hp hq he => exact (TaskStage.quietTo_phase hq).2.2
  | panic hp hc => exact TaskStage.inCallback_live hc
  | cancel hl hp ha => exact SessionTask.live_iff.mp hl
  | _ hp hs => rw [hs]; exact nofun

/-! ## What a task adds to the books -/

namespace SessionTask

def permits (t : SessionTask) : Nat := if t.live then permitCaptured.toNat else 0

/-- What a task adds to the connection count: all of them do, until they lower the count themselves. -/
def counted (t : SessionTask) : Nat := if t.stage = .finished then 0 else 1

theorem permits_congr (h : t'.stage = t.stage) : t'.permits = t.permits := by
  rw [permits, permits, live, live, h]

theorem counted_congr (h : t'.stage = t.stage) : t'.counted = t.counted := by
  rw [counted, counted, h]

theorem permits_live (h : t.live = true) : t.permits = permitCaptured.toNat := if_pos h

theorem counted_live (h : t.live = true) : t.counted = 1 := by
  apply if_neg
  intro hs
  rw [live, hs] at h
  cases h

theorem finish_permits (b : Books) (t : SessionTask) {stage : TaskStage} (hs : stage.ended = true) :
    (t.finish b stage).1.permits + (t.finish b stage).2.permits = b.permits + permitCaptured.toNat := by
  have : (t.finish b stage).2.permits = 0 := if_neg (by simp [finish, live, hs])
  rw [this]; rfl

end SessionTask

theorem TaskStep.permits (h : TaskStep i b t e b' t') : b'.permits + t'.permits = b.permits + t.permits := by
  have hlive := h.live
  rw [SessionTask.permits_live hlive]
  -- a task that stays live keeps what it holds
  have hkeep : b'.permits = b.permits → t'.live = true →
      b'.permits + t'.permits = b.permits + permitCaptured.toNat := by
    intro hb ht
    rw [hb, SessionTask.permits_live ht]
  cases h with
  | poll hl hp ha => exact hkeep rfl hl
  | suspend hp hw => exact hkeep rfl hlive
  | quiet hp hq he =>
      refine hkeep rfl (SessionTask.live_iff.mpr ?_)
      obtain ⟨hph, _, hne⟩ := TaskStage.quietTo_phase hq
      exact fun hend => hne (hph.symm.trans hend)
  | uncount hp hs => exact SessionTask.finish_permits _ _ rfl
  | panic hp hc => exact SessionTask.finish_permits _ _ rfl
  | overflow hp hs => exact SessionTask.finish_permits _ _ rfl
  | cancel hl hp ha => exact SessionTask.finish_permits _ _ rfl
  | _ => exact hkeep rfl rfl

/-- A task lowers the connection count exactly when it finishes. -/
theorem TaskStep.counted (h : TaskStep i b t e b' t') (hle : t.counted ≤ b.connectionCount) :
    b'.connectionCount + t.counted = b.connectionCount + t'.counted := by
  have hlive := h.live
  rw [SessionTask.counted_live hlive] at hle ⊢
  cases h with
  | poll hl hp ha => rw [SessionTask.counted_live]; exact hlive
  | suspend hp hw => rw [SessionTask.counted_live]; exact hlive
  | quiet hp hq he =>
      rw [SessionTask.counted_live]
      rw [SessionTask.live_iff]
      obtain ⟨hph, _, hne⟩ := TaskStage.quietTo_phase hq
      exact fun hend => hne (hph.symm.trans hend)
  | uncount hp hs =>
      show b.connectionCount - 1 + 1 = b.connectionCount + 0
      omega
  | _ => rfl

end NetworkSystem
