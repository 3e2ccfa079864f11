import NetworkSystem.Server.Lemmas.Phases

/-!
# The callbacks of a session

Which callbacks were made at each stage of a session task, what they add to the gauge, and where a task is
when it is aborted.
-/

namespace NetworkSystem

open TaskPool

/-! ## Logs -/

def openSession (log : List Callback) : Bool :=
  decide (.connected ∈ log) && decide (.disconnected ∉ log)

theorem OpenLog.openSession {log : List Callback} (h : OpenLog log) : openSession log = true := by
  obtain ⟨ms, rfl⟩ := h
  simp [NetworkSystem.openSession]

theorem ClosedLog.openSession {log : List Callback} (h : ClosedLog log) : openSession log = false := by
  obtain ⟨ms, rfl⟩ := h
  simp [NetworkSystem.openSession]

theorem OpenLog.message {log : List Callback} (h : OpenLog log) (m : Message) :
    OpenLog (log ++ [.message m]) := by
  obtain ⟨ms, rfl⟩ := h
  exact ⟨ms ++ [m], by simp⟩

theorem OpenLog.disconnect {log : List Callback} (h : OpenLog log) : ClosedLog (log ++ [.disconnected]) := by
  obtain ⟨ms, rfl⟩ := h
  exact ⟨ms, by simp⟩

theorem exists_closedLog {log : List Callback} (h : log = [] ∨ OpenLog log ∨ ClosedLog log) :
    ∃ rest, ClosedLog (log ++ rest) := by
  rcases h with rfl | h | h
  · exact ⟨[.connected, .disconnected], [], rfl⟩
  · exact ⟨[.disconnected], h.disconnect⟩
  · exact ⟨[], by rwa [List.append_nil]⟩

/-! ## Stages and logs -/

/-- The callbacks that were made when the task is at its stage. -/
def SessionTask.Shaped (t : SessionTask) : Prop :=
  (t.stage = .spawned → t.session = none) ∧
  match t.stage.phase with
  | .before => t.log = []
  | .during => OpenLog t.log
  | .after => ClosedLog t.log
  | .ended => t.log = [] ∨ OpenLog t.log ∨ ClosedLog t.log

variable {i : Nat} {b b' : Books} {t t' : SessionTask} {e : TaskEvent}

theorem SessionTask.Shaped.log_cases (h : t.Shaped) : t.log = [] ∨ OpenLog t.log ∨ ClosedLog t.log := by
  obtain ⟨_, h⟩ := h
  cases hph : t.stage.phase with
  | before => simp only [hph] at h; exact Or.inl h
  | during => simp only [hph] at h; exact Or.inr (Or.inl h)
  | after => simp only [hph] at h; exact Or.inr (Or.inr h)
  | ended => simp only [hph] at h; exact h

theorem SessionTask.Shaped.before (h : t.Shaped) (hph : t.stage.phase = .before) : t.log = [] := by
  have := h.2
  simpa only [hph] using this

theorem SessionTask.Shaped.during (h : t.Shaped) (hph : t.stage.phase = .during) : OpenLog t.log := by
  have := h.2
  simpa only [hph] using this

theorem SessionTask.Shaped.after (h : t.Shaped) (hph : t.stage.phase = .after) : ClosedLog t.log := by
  have := h.2
  simpa only [hph] using this

theorem SessionTask.Shaped.keep (h : t.Shaped) (hlog : t'.log = t.log)
    (hph : t'.stage.phase = t.stage.phase) (hne : t.stage.phase ≠ .ended)
    (hsp : t'.stage = .spawned → t'.session = none) : t'.Shaped := by
  refine ⟨hsp, ?_⟩
  have := h.2
  rw [hph]
  cases hcase : t.stage.phase with
  | before => simp only [hcase] at this ⊢; rw [hlog]; exact this
  | during => simp only [hcase] at this ⊢; rw [hlog]; exact this
  | after => simp only [hcase] at this ⊢; rw [hlog]; exact this
  | ended => exact absurd hcase hne

theorem TaskStep.shaped (h : TaskStep i b t e b' t') (hs : t.Shaped) : t'.Shaped := by
  have hlive := SessionTask.live_iff.mp h.live
  cases h with
  | poll hl hp ha => exact hs.keep rfl rfl hlive hs.1
  | suspend hp hw => exact hs.keep rfl rfl hlive hs.1
  | quiet hp hq he =>
      obtain ⟨hph, hbefore, _⟩ := TaskStage.quietTo_phase hq
      refine hs.keep rfl hph hlive fun hsp => ?_
      exact absurd (hph.symm.trans (congrArg TaskStage.phase hsp)) hbefore
  | create hp hst => exact hs.keep rfl (by rw [hst]; rfl) hlive nofun
  | list hp hst => exact hs.keep rfl (by rw [hst]; rfl) hlive nofun
  | delist hp hst => exact hs.keep rfl (by rw [hst]; rfl) hlive nofun
  | connect hp hst =>
      refine ⟨nofun, [], ?_⟩
      show t.log ++ [.connected] = _
      rw [hs.before (by rw [hst]; rfl)]
      rfl
  | message hp hst =>
      exact ⟨nofun, (hs.during (by rw [hst]; rfl)).message _⟩
  | disconnect hp hst =>
      exact ⟨nofun, (hs.during (by rw [hst]; rfl)).disconnect⟩
  | uncount hp hst =>
      exact ⟨nofun, Or.inr (Or.inr (hs.after (by rw [hst]; rfl)))⟩
  | panic hp hc => exact ⟨nofun, hs.log_cases⟩
  | overflow hp hst => exact ⟨nofun, hs.log_cases⟩
  | cancel hl hp ha => exact ⟨nofun, hs.log_cases⟩

/-! ## The gauge -/

/-- What a session adds to `active_connections`. -/
def SessionTask.gauge (t : SessionTask) : Int := if openSession t.log then 1 else 0

theorem TaskStep.gauge (h : TaskStep i b t e b' t') (hs : t.Shaped) :
    b'.metrics.activeConnections + t.gauge = b.metrics.activeConnections + t'.gauge := by
  cases h with
  | connect hp hst =>
      have hlog := hs.before (by rw [hst]; rfl)
      have hfresh : openSession [] = false := rfl
      have hopen : openSession ([] ++ [.connected]) = true := rfl
      simp only [SessionTask.gauge, SessionTask.callback, Metrics.record, hlog, hfresh, hopen, if_true,
        Bool.false_eq_true, if_false, add_zero]
  | message hp hst =>
      have hopen := hs.during (by rw [hst]; rfl)
      simp only [SessionTask.gauge, SessionTask.callback, Metrics.record, hopen.openSession,
        (hopen.message _).openSession]
  | disconnect hp hst =>
      have hopen := hs.during (by rw [hst]; rfl)
      simp only [SessionTask.gauge, SessionTask.callback, Metrics.record, hopen.openSession,
        hopen.disconnect.openSession, if_true, Bool.false_eq_true, if_false]
      omega
  | _ => rfl

theorem SessionTask.Complete.gauge (h : t.Complete) : t.gauge = 0 := by
  unfold SessionTask.gauge
  rcases h with ⟨_, hlog⟩ | hclosed
  · rw [hlog]; rfl
  · rw [hclosed.openSession]; rfl

/-! ## The sessions of a server -/

/-- Every task has made the callbacks of its stage, and the gauge counts the open sessions. -/
structure TcpServer.Metered (s : TcpServer) : Prop where
  shaped : ∀ (i : Nat) (t : SessionTask), s.tasks[i]? = some t → t.Shaped
  gauge : s.books.metrics.activeConnections = (s.tasks.map SessionTask.gauge).sum

variable {s s' : TcpServer}

theorem TcpServer.Metered.withConfig (config : ServerConfig) : (TcpServer.withConfig config).Metered where
  shaped := by simp [TcpServer.withConfig]
  gauge := rfl

theorem TcpServer.Metered.set (h : s.Metered) {i : Nat} {t t' : SessionTask} (hi : s.tasks[i]? = some t)
    (ht : s'.tasks = s.tasks.set i t') (hb : s'.books.metrics = s.books.metrics)
    (hst : t'.stage = t.stage) (hlog : t'.log = t.log) (hses : t.session = none → t'.session = none) :
    s'.Metered where
  shaped := by
    rw [ht]
    refine forall_getElem?_set h.shaped ?_
    have hold := h.shaped _ _ hi
    refine ⟨fun hsp => hses (hold.1 (hst ▸ hsp)), ?_⟩
    rw [hst, hlog]
    exact hold.2
  gauge := by
    rw [hb, ht, sum_map_set_of_eq SessionTask.gauge hi (by rw [SessionTask.gauge, SessionTask.gauge, hlog])]
    exact h.gauge

theorem SessionTask.close_session {part : ClosePart} (h : t.close part = some t') : t.session ≠ none := by
  intro hn
  rw [SessionTask.close, hn] at h
  cases h

theorem SessionTask.abort_session (t : SessionTask) : t.abort.session = t.session := by
  unfold SessionTask.abort
  split <;> rfl

theorem TcpServer.Metered.step {e : ServerEvent} (h : s.Metered) (hs : ServerStep s e s') :
    s'.Metered := by
  cases hs with
  | @task i t t' b e hi ht =>
      have hshape := h.shaped _ _ hi
      constructor
      · exact forall_getElem?_set h.shaped (ht.shaped hshape)
      · have hsum := sum_map_set SessionTask.gauge t' hi
        have hstep := ht.gauge hshape
        have hold := h.gauge
        show b.metrics.activeConnections = ((s.tasks.set i t').map SessionTask.gauge).sum
        omega
  | close hi ht =>
      obtain ⟨hst, _, _, hlog⟩ := SessionTask.close_eq ht
      exact h.set hi rfl rfl hst hlog fun hn => absurd hn (SessionTask.close_session ht)
  | closeNext hc hi ht =>
      obtain ⟨hst, _, _, hlog⟩ := SessionTask.close_eq ht
      exact h.set hi rfl rfl hst hlog fun hn => absurd hn (SessionTask.close_session ht)
  | @abort i todo t hc hi =>
      obtain ⟨hst, _, hlog⟩ := t.abort_eq
      exact h.set hi rfl rfl hst hlog fun hn => t.abort_session.trans hn
  | spawn ha =>
      constructor
      · exact forall_getElem?_snoc h.shaped ⟨fun _ => rfl, rfl⟩
      · show s.books.metrics.activeConnections = ((s.tasks ++ [({} : SessionTask)]).map SessionTask.gauge).sum
        rw [List.map_append, List.sum_append, h.gauge]
        simp [SessionTask.gauge, openSession]
  | _ => exact ⟨h.shaped, h.gauge⟩

/-! ## Aborted tasks -/

/-- An aborted task made no callback and never will, or has made the last one; and a task that was torn
down is complete. -/
structure SessionTask.Quiet (t : SessionTask) : Prop where
  aborted : t.aborted = true → (t.stage = .spawned ∧ t.polled = false) ∨ t.stage.phase = .after ∨
    t.stage.phase = .ended
  ended : t.stage.phase = .ended → t.Complete

theorem SessionTask.Quiet.fresh : SessionTask.Quiet {} where
  aborted := nofun
  ended := nofun

theorem SessionTask.Quiet.complete (hq : t.Quiet) (hs : t.Shaped) (ha : t.aborted = true) :
    t.Complete := by
  rcases hq.aborted ha with ⟨hst, _⟩ | hafter | hended
  · exact Or.inl ⟨hs.1 hst, hs.before (by rw [hst]; rfl)⟩
  · exact Or.inr (hs.after hafter)
  · exact hq.ended hended

theorem TaskStep.quietly (h : TaskStep i b t e b' t') (hs : t.Shaped) (hq : t.Quiet)
    (hpanic : e ≠ .panic) (hover : e ≠ .overflow) : t'.Quiet := by
  have hlive := SessionTask.live_iff.mp h.live
  -- a task that is polled was not aborted ahead of its callbacks
  have hpolled : t.polled = true → t.aborted = true → t.stage.phase = .after := by
    intro hp ha
    rcases hq.aborted ha with ⟨_, hn⟩ | hafter | hended
    · rw [hp] at hn; cases hn
    · exact hafter
    · exact absurd hended hlive
  cases h with
  | poll hl hp ha =>
      exact ⟨fun ha' => absurd ha' (by rw [ha]; exact nofun), fun hend => absurd hend hlive⟩
  | suspend hp hw =>
      exact ⟨fun ha => Or.inr (Or.inl (hpolled hp ha)), fun hend => absurd hend hlive⟩
  | quiet hp hq' he =>
      obtain ⟨hph, _, hne⟩ := TaskStage.quietTo_phase hq'
      exact ⟨fun ha => Or.inr (Or.inl (hph.trans (hpolled hp ha))), fun hend => absurd (hph.symm.trans hend) hne⟩
  | delist hp hst => exact ⟨fun _ => Or.inr (Or.inl rfl), nofun⟩
  | disconnect hp hst => exact ⟨fun _ => Or.inr (Or.inl rfl), nofun⟩
  | uncount hp hst =>
      exact ⟨fun _ => Or.inr (Or.inr rfl), fun _ => Or.inr (hs.after (by rw [hst]; rfl))⟩
  | panic hp hc => exact absurd rfl hpanic
  | overflow hp hst => exact absurd rfl hover
  | cancel hl hp ha => exact ⟨fun _ => Or.inr (Or.inr rfl), fun _ => hq.complete hs ha⟩
  | create hp hst | list hp hst | connect hp hst | message hp hst =>
      refine ⟨fun ha => ?_, nofun⟩
      have hafter := hpolled hp ha
      rw [hst] at hafter
      cases hafter

theorem SessionTask.abortable_cases (hs : t.Shaped) (h : t.abortable = true) :
    (t.stage = .spawned ∧ t.polled = false) ∨ t.stage.phase = .after ∨ t.stage.phase = .ended := by
  simp only [SessionTask.abortable, Bool.or_eq_true, Bool.and_eq_true, Bool.not_eq_true', beq_iff_eq,
    decide_eq_true_eq] at h
  rcases h with (hl | h) | hd
  · refine Or.inr (Or.inr ?_)
    by_contra hne
    rw [SessionTask.live_iff.mpr hne] at hl
    cases hl
  · exact Or.inl h
  · cases hph : t.stage.phase with
    | before => rw [hs.before hph] at hd; cases hd
    | during =>
        obtain ⟨ms, hlog⟩ := hs.during hph
        rw [hlog] at hd
        simp at hd
    | after => exact Or.inr (Or.inl rfl)
    | ended => exact Or.inr (Or.inr rfl)

def TcpServer.Quiet (s : TcpServer) : Prop :=
  ∀ (i : Nat) (t : SessionTask), s.tasks[i]? = some t → t.Quiet

theorem TcpServer.Quiet.withConfig (config : ServerConfig) : (TcpServer.withConfig config).Quiet := by
  intro i t ht
  cases ht

theorem TcpServer.Quiet.set (h : s.Quiet) {i : Nat} {t t' : SessionTask} (hi : s.tasks[i]? = some t)
    (ht : s'.tasks = s.tasks.set i t') (hq : t.Quiet → t'.Quiet) : s'.Quiet := by
  unfold TcpServer.Quiet
  rw [ht]
  exact forall_getElem?_set h (hq (h _ _ hi))

theorem SessionTask.Quiet.close {part : ClosePart} (h : t.Quiet) (hc : t.close part = some t') :
    t'.Quiet := by
  obtain ⟨hst, hp, hab, hlog⟩ := SessionTask.close_eq hc
  constructor
  · rw [hst, hp, hab]; exact h.aborted
  · intro hend
    rcases h.ended (hst ▸ hend) with ⟨hn, _⟩ | hclosed
    · exact absurd hn (SessionTask.close_session hc)
    · exact Or.inr (hlog ▸ hclosed)

theorem TcpServer.Quiet.step {e : ServerEvent} (h : s.Quiet) (hm : s.Metered)
    (hC : s.abortsQuietly e = true) (hpanic : e.panics = false) (hover : e.overflows = false)
    (hs : ServerStep s e s') : s'.Quiet := by
  cases hs with
  | @task i t t' b e hi ht =>
      refine h.set hi rfl fun hq => ht.quietly (hm.shaped _ _ hi) hq ?_ ?_
      · rintro rfl
        cases hpanic
      · rintro rfl
        cases hover
  | close hi ht => exact h.set hi rfl fun hq => hq.close ht
  | closeNext hc hi ht => exact h.set hi rfl fun hq => hq.close ht
  | @abort i todo t hc hi =>
      refine h.set hi rfl fun hq => ?_
      have hab : t.abortable = true := by
        simpa only [TcpServer.abortsQuietly, hc, hi, Option.all_some] using hC
      obtain ⟨hst, hp, hlog⟩ := t.abort_eq
      constructor
      · intro _
        rw [hst, hp]
        exact SessionTask.abortable_cases (hm.shaped _ _ hi) hab
      · intro hend
        rw [SessionTask.Complete, t.abort_session, hlog]
        exact hq.ended (hst ▸ hend)
  | spawn ha => exact forall_getElem?_snoc h .fresh
  | _ => exact h

end NetworkSystem
