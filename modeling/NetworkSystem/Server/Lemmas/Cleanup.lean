import NetworkSystem.Server.Cleanup

/-!
# Activity and idleness

A `send` or a `receive` that returns `Ok` sets the last activity of its session to the reading it takes, and
nothing sets it back. So a session that is found idle has completed nothing within the idle timeout before that.
-/

namespace NetworkSystem

open Steps TaskPool

/-! ## The last activity -/

variable {io io' : SessionWire} {call call' : SendCall} {se : SendEvent} {s s' : SharedSession}

/-- What a step leaves of the last activity: it is the reading of the event, or stays while nothing completes. -/
structure Activity (reading : Option Nat) (completes : Bool) (session session' : Session) : Prop where
  idleTimeout : session'.idleTimeout = session.idleTimeout
  activity : reading = some session'.lastActivity ∨
    (session'.lastActivity = session.lastActivity ∧ completes = false)

theorem Session.sendStep_activity (h : Session.sendStep io call se = some (io', call')) :
    Activity (SessionEvent.send se).reading (SessionCall.send call').completedOk io.session io'.session := by
  unfold Session.sendStep at h
  cases hstage : call.stage with
  | entered =>
      simp only [hstage] at h
      cases se with
      | check now =>
          simp only at h
          split at h
          · cases h; exact ⟨rfl, Or.inr ⟨rfl, rfl⟩⟩
          · split at h
            · cases h; exact ⟨rfl, Or.inr ⟨rfl, rfl⟩⟩
            · split at h <;> cases h <;> exact ⟨rfl, Or.inr ⟨rfl, rfl⟩⟩
      | _ => cases h
  | locking data =>
      simp only [hstage] at h
      cases se with
      | lock =>
          simp only at h
          split at h
          · cases h
          · split at h
            · cases h; exact ⟨rfl, Or.inr ⟨rfl, rfl⟩⟩
            · obtain ⟨⟨w, c⟩, hw, heq⟩ := Option.map_eq_some_iff.mp h
              obtain ⟨w', -, hbegin⟩ := Option.map_eq_some_iff.mp hw
              cases heq
              cases hbegin
              exact ⟨rfl, Or.inr ⟨rfl, rfl⟩⟩
      | drop => cases h; exact ⟨rfl, Or.inr ⟨rfl, rfl⟩⟩
      | _ => cases h
  | writing =>
      simp only [hstage] at h
      obtain ⟨⟨w, c⟩, hw, heq⟩ := Option.map_eq_some_iff.mp h
      cases se with
      | done now =>
          cases heq
          exact ⟨rfl, Or.inl rfl⟩
      | put k =>
          obtain ⟨w', -, hput⟩ := Option.map_eq_some_iff.mp hw
          cases heq
          cases hput
          refine ⟨rfl, Or.inr ⟨rfl, ?_⟩⟩
          rw [SessionCall.completedOk, hstage]
          rfl
      | timedOut | failed | drop =>
          obtain ⟨w', -, hend⟩ := Option.map_eq_some_iff.mp hw
          cases heq
          cases hend
          exact ⟨rfl, Or.inr ⟨rfl, rfl⟩⟩
      | _ => cases hw
  | waiting | trying | returned | dropped =>
      simp only [hstage] at h
      cases h

theorem SharedSession.afterLoop_activity (s : SharedSession) (finished : Nat) {r : LoopEnd} :
    Activity (some finished) (SessionCall.receive (s.afterLoop finished r).2).completedOk s.session
      (s.afterLoop finished r).1.session := by
  unfold SharedSession.afterLoop
  split
  · exact ⟨rfl, Or.inr ⟨rfl, rfl⟩⟩
  · exact ⟨rfl, Or.inl rfl⟩
  · exact ⟨rfl, Or.inr ⟨rfl, rfl⟩⟩

theorem SharedSession.receiveStep_activity {stage stage' : ReceiveStage} {re : ReceiveEvent}
    (h : s.receiveStep stage re = some (s', stage')) :
    Activity (SessionEvent.receive re).reading (SessionCall.receive stage').completedOk s.session s'.session := by
  unfold SharedSession.receiveStep at h
  split at h
  · split at h
    · cases h; exact ⟨rfl, Or.inr ⟨rfl, rfl⟩⟩
    · split at h <;> cases h <;> exact ⟨rfl, Or.inr ⟨rfl, rfl⟩⟩
  · split at h <;> cases h
    exact ⟨rfl, Or.inr ⟨rfl, rfl⟩⟩
  · cases h; exact ⟨rfl, Or.inr ⟨rfl, rfl⟩⟩
  · rename_i elapsed finished
    split at h
    · cases h
    · split at h
      · cases h; exact ⟨rfl, Or.inr ⟨rfl, rfl⟩⟩
      · split at h
        · cases h; exact ⟨rfl, Or.inr ⟨rfl, rfl⟩⟩
        · have hactivity := afterLoop_activity { s with readLocked := true } finished
            (r := receiveLoop s.session.assemblyTimeout elapsed [] s.session.readBuffer s.incoming)
          rw [Option.some.inj h] at hactivity
          exact hactivity
  · cases h; exact ⟨rfl, Or.inr ⟨rfl, rfl⟩⟩
  · rename_i read finished
    have hactivity := s.afterLoop_activity finished
      (r := resumeLoop s.session.assemblyTimeout read s.session.readBuffer s.incoming)
    rw [Option.some.inj h] at hactivity
    exact hactivity
  · cases h; exact ⟨rfl, Or.inr ⟨rfl, rfl⟩⟩
  · cases h

theorem SharedSession.closeStep_activity {stage stage' : CloseStage} {ce : CloseEvent}
    (h : s.closeStep stage ce = some (s', stage')) :
    s'.session.idleTimeout = s.session.idleTimeout ∧ s'.session.lastActivity = s.session.lastActivity := by
  unfold SharedSession.closeStep at h
  split at h
  · cases h; exact ⟨rfl, rfl⟩
  · cases h; exact ⟨rfl, rfl⟩
  · split at h
    · cases h
    · split at h <;> cases h <;> exact ⟨rfl, rfl⟩
  · cases h; exact ⟨rfl, rfl⟩
  · cases h; exact ⟨rfl, rfl⟩
  · cases h; exact ⟨rfl, rfl⟩
  · split at h <;> cases h
    exact ⟨rfl, rfl⟩
  · cases h; exact ⟨rfl, rfl⟩
  · cases h; exact ⟨rfl, rfl⟩
  · cases h

theorem SessionCall.act_activity {c c' : SessionCall} {e : SessionEvent}
    (h : SessionCall.act s c e = some (s', c')) : Activity e.reading c'.completedOk s.session s'.session := by
  unfold SessionCall.act at h
  split at h
  · split at h
    · cases h
    · obtain ⟨⟨io', call'⟩, hstep, heq⟩ := Option.map_eq_some_iff.mp h
      cases heq
      exact Session.sendStep_activity hstep
  · obtain ⟨⟨s₁, stage'⟩, hstep, heq⟩ := Option.map_eq_some_iff.mp h
    cases heq
    exact SharedSession.receiveStep_activity hstep
  · obtain ⟨⟨s₁, stage'⟩, hstep, heq⟩ := Option.map_eq_some_iff.mp h
    cases heq
    obtain ⟨hidle, hactivity⟩ := SharedSession.closeStep_activity hstep
    exact ⟨hidle, Or.inr ⟨hactivity, rfl⟩⟩
  · cases h
    exact ⟨rfl, Or.inr ⟨rfl, rfl⟩⟩
  · cases h

/-- A step of a session at reading `now` leaves its last activity there, or as it was and completes nothing. -/
theorem session_step_activity {p p' : Pool SharedSession SessionCall} {e : TaskPool.Event SessionRequest SessionEvent}
    {now : Nat} (hs : sessionCalls.step p e = some p') (hreads : readsAt now e) :
    p'.shared.session.idleTimeout = p.shared.session.idleTimeout ∧
      (p'.shared.session.lastActivity = now ∨
        (p'.shared.session.lastActivity = p.shared.session.lastActivity ∧ completesOk p' e = false)) := by
  cases e with
  | spawn request =>
      cases hs
      exact ⟨rfl, Or.inr ⟨rfl, rfl⟩⟩
  | act j e =>
      obtain ⟨c, s', c', hj, ha, rfl⟩ := Program.step_act.mp hs
      obtain ⟨hidle, hreading | ⟨hkept, hcompletes⟩⟩ := SessionCall.act_activity ha
      · exact ⟨hidle, Or.inl (hreads _ hreading)⟩
      · refine ⟨hidle, Or.inr ⟨hkept, ?_⟩⟩
        rw [completesOk, List.getElem?_set_self (List.getElem?_eq_some_iff.mp hj).1]
        exact hcompletes

/-! ## The sessions that were found idle -/

def CleanupTask.found : CleanupTask → List (Nat × Nat)
  | .examining _ idle => idle
  | .closing rest | .awaiting _ _ rest => rest
  | _ => []

namespace Cleanup

variable {timeouts : SessionTimeouts} {c c' : Clocked Cleanup} {e : Nat × CleanupEvent} {now : Nat} {d : Cleanup}

/-- What a session has completed is no later than its last activity. What it has completed before it was found
idle was not within the idle timeout even then. -/
structure FindsIdle (timeouts : SessionTimeouts) (c : Clocked Cleanup) : Prop where
  session : ∀ (i : Nat) (p : Pool SharedSession SessionCall), c.state.sessions[i]? = some p →
    p.shared.session.idleTimeout = timeouts.idleTimeout ∧ p.shared.session.lastActivity ≤ c.now
  completed : ∀ done ∈ c.state.completed, done.2 ≤ c.now ∧
    ∃ p, c.state.sessions[done.1]? = some p ∧ done.2 ≤ p.shared.session.lastActivity
  found : ∀ s ∈ c.state.task.found, s.2 ≤ c.now ∧
    ∀ done ∈ c.state.completed, done.1 = s.1 → s.2 ≤ done.2 ∨ done.2 + timeouts.idleTimeout < s.2

theorem FindsIdle.fresh (timeouts : SessionTimeouts) (start : Nat) : FindsIdle timeouts (Cleanup.fresh start) where
  session i p hi := by simp [Cleanup.fresh] at hi
  completed done hdone := by cases hdone
  found s hs := by cases hs

/-- A step that completes nothing and finds nothing. -/
theorem FindsIdle.frame (h : FindsIdle timeouts c) (hnow : c.now ≤ now) (hcompleted : d.completed = c.state.completed)
    (hsession : ∀ (i : Nat) (p' : Pool SharedSession SessionCall), d.sessions[i]? = some p' →
      p'.shared.session.idleTimeout = timeouts.idleTimeout ∧ p'.shared.session.lastActivity ≤ now)
    (hkept : ∀ (i : Nat) (p : Pool SharedSession SessionCall), c.state.sessions[i]? = some p →
      ∃ p', d.sessions[i]? = some p' ∧ p.shared.session.lastActivity ≤ p'.shared.session.lastActivity)
    (hfound : d.task.found ⊆ c.state.task.found) : FindsIdle timeouts ⟨now, d⟩ where
  session := hsession
  completed done hdone := by
    rw [hcompleted] at hdone
    obtain ⟨hle, p, hp, hactivity⟩ := h.completed done hdone
    obtain ⟨p', hp', hle'⟩ := hkept done.1 p hp
    exact ⟨hle.trans hnow, p', hp', hactivity.trans hle'⟩
  found s hs := by
    obtain ⟨hle, hdone⟩ := h.found s (hfound hs)
    rw [hcompleted]
    exact ⟨hle.trans hnow, hdone⟩

/-- The sessions are left alone. -/
theorem FindsIdle.aside (h : FindsIdle timeouts c) (hnow : c.now ≤ now) (hcompleted : d.completed = c.state.completed)
    (hsessions : d.sessions = c.state.sessions) (hfound : d.task.found ⊆ c.state.task.found) :
    FindsIdle timeouts ⟨now, d⟩ := by
  refine h.frame hnow hcompleted (fun i p hi => ?_) (fun i p hi => ⟨p, by rwa [hsessions], le_refl _⟩) hfound
  rw [hsessions] at hi
  obtain ⟨hidle, hactivity⟩ := h.session i p hi
  exact ⟨hidle, hactivity.trans hnow⟩

/-- One session takes a step in which its last activity does not go back. -/
theorem FindsIdle.set (h : FindsIdle timeouts c) (hnow : c.now ≤ now) {i : Nat} {p p' : Pool SharedSession SessionCall}
    (hi : c.state.sessions[i]? = some p) (hsessions : d.sessions = c.state.sessions.set i p')
    (hidle : p'.shared.session.idleTimeout = p.shared.session.idleTimeout)
    (hactivity : p.shared.session.lastActivity ≤ p'.shared.session.lastActivity)
    (hle : p'.shared.session.lastActivity ≤ now) (hcompleted : d.completed = c.state.completed)
    (hfound : d.task.found ⊆ c.state.task.found) : FindsIdle timeouts ⟨now, d⟩ := by
  refine h.frame hnow hcompleted (fun j q hj => ?_) (fun j q hj => ?_) hfound
  · rw [hsessions] at hj
    rcases getElem?_set_cases hj with ⟨rfl, rfl⟩ | ⟨-, hj⟩
    · exact ⟨hidle.trans (h.session _ p hi).1, hle⟩
    · obtain ⟨hidle, hactivity⟩ := h.session j q hj
      exact ⟨hidle, hactivity.trans hnow⟩
  · rw [hsessions]
    by_cases hij : i = j
    · subst hij
      rw [hi, Option.some.injEq] at hj
      rw [← hj]
      exact ⟨p', List.getElem?_set_self (List.getElem?_eq_some_iff.mp hi).1, hactivity⟩
    · exact ⟨q, by rw [List.getElem?_set_ne hij, hj], le_refl _⟩

/-- What is completed now is not before anything was found idle. -/
theorem FindsIdle.completes (h : FindsIdle timeouts ⟨now, d⟩) {i : Nat} {p : Pool SharedSession SessionCall}
    (hi : d.sessions[i]? = some p) (hactivity : p.shared.session.lastActivity = now) :
    FindsIdle timeouts ⟨now, { d with completed := (i, now) :: d.completed }⟩ where
  session := h.session
  completed done hdone := by
    rcases List.mem_cons.mp hdone with rfl | hdone
    · exact ⟨le_refl _, p, hi, hactivity.ge⟩
    · exact h.completed done hdone
  found s hs := by
    obtain ⟨hle, hfound⟩ := h.found s hs
    refine ⟨hle, List.forall_mem_cons.mpr ⟨fun _ => Or.inl hle, hfound⟩⟩

theorem FindsIdle.sessionStep (h : FindsIdle timeouts c) (hnow : c.now ≤ now) {i : Nat}
    {ev : TaskPool.Event SessionRequest SessionEvent} (hs : c.state.sessionStep now i ev = some d) :
    FindsIdle timeouts ⟨now, d⟩ := by
  unfold Cleanup.sessionStep at hs
  split at hs
  · rename_i hreads
    obtain ⟨p, hi, hs⟩ := Option.bind_eq_some_iff.mp hs
    obtain ⟨p', hstep, rfl⟩ := Option.map_eq_some_iff.mp hs
    obtain ⟨hidle, hactivity⟩ := session_step_activity hstep hreads
    have hbefore := (h.session i p hi).2
    have hset : FindsIdle timeouts ⟨now, { c.state with sessions := c.state.sessions.set i p' }⟩ := by
      refine h.set hnow hi rfl hidle ?_ ?_ rfl (List.Subset.refl _)
      · rcases hactivity with hactivity | ⟨hactivity, -⟩ <;> omega
      · rcases hactivity with hactivity | ⟨hactivity, -⟩ <;> omega
    cases hcompletes : completesOk p' ev with
    | false => exact hset
    | true =>
        rcases hactivity with hactivity | ⟨-, hfalse⟩
        · exact hset.completes (List.getElem?_set_self (List.getElem?_eq_some_iff.mp hi).1) hactivity
        · rw [hcompletes] at hfalse
          cases hfalse
  · cases hs

/-- The session that is looked at is found idle only where all it has completed is past the idle timeout. -/
theorem FindsIdle.examines (h : FindsIdle timeouts c) (hnow : c.now ≤ now) {i : Nat} {todo : List Nat}
    {idle : List (Nat × Nat)} {p : Pool SharedSession SessionCall} (hi : c.state.sessions[i]? = some p)
    (htask : c.state.task = .examining (i :: todo) idle) :
    FindsIdle timeouts ⟨now, { c.state with
      task := .examining todo (if p.shared.session.isIdle now then idle ++ [(i, now)] else idle) }⟩ := by
  have hkept : FindsIdle timeouts ⟨now, { c.state with task := .examining todo idle }⟩ :=
    h.aside hnow rfl rfl (by rw [htask]; exact List.Subset.refl _)
  split
  · rename_i hidle
    refine ⟨hkept.session, hkept.completed, fun s hs => ?_⟩
    rcases List.mem_append.mp hs with hs | hs
    · exact hkept.found s hs
    · rw [List.mem_singleton.mp hs]
      refine ⟨le_refl _, fun done hdone heq => Or.inr ?_⟩
      obtain ⟨-, q, hq, hle⟩ := h.completed done hdone
      obtain ⟨hidleTimeout, -⟩ := h.session i p hi
      have hlong : now - p.shared.session.lastActivity > p.shared.session.idleTimeout := of_decide_eq_true hidle
      rw [heq] at hq
      rw [hi, Option.some.injEq] at hq
      subst hq
      show done.2 + timeouts.idleTimeout < now
      omega
  · exact hkept

theorem FindsIdle.cleanupStep (h : FindsIdle timeouts c) (hnow : c.now ≤ now)
    (hs : c.state.cleanupStep timeouts now = some d) : FindsIdle timeouts ⟨now, d⟩ := by
  unfold Cleanup.cleanupStep at hs
  split at hs
  · rename_i htask
    cases hs
    refine h.aside hnow rfl rfl ?_
    dsimp only
    split <;> exact List.nil_subset _
  · split at hs <;> cases hs
    exact h.aside hnow rfl rfl (List.nil_subset _)
  · rename_i idle htask
    cases hs
    exact h.aside hnow rfl rfl (by rw [htask]; exact List.Subset.refl _)
  · rename_i i todo idle htask
    obtain ⟨p, hi, rfl⟩ := Option.map_eq_some_iff.mp hs
    exact h.examines hnow hi htask
  · cases hs
    exact h.aside hnow rfl rfl (List.nil_subset _)
  · rename_i i found rest htask
    obtain ⟨p, hi, hs⟩ := Option.bind_eq_some_iff.mp hs
    obtain ⟨p', hclose, rfl⟩ := Option.map_eq_some_iff.mp hs
    cases hclose
    refine h.set hnow hi rfl rfl (le_refl _) ((h.session i p hi).2.trans hnow) rfl ?_
    rw [htask]
    exact List.subset_cons_self _ _
  · rename_i i call rest htask
    split at hs <;> cases hs
    exact h.aside hnow rfl rfl (by rw [htask]; exact List.Subset.refl _)
  · cases hs

theorem FindsIdle.step (h : FindsIdle timeouts c) (hs : step timeouts c e = some c') : FindsIdle timeouts c' := by
  obtain ⟨hnow, hstep, hafter⟩ := clocked_eq_some.mp hs
  obtain ⟨now', d⟩ := c'
  cases hafter
  cases he : e.2 with
  | accept incoming =>
      rw [he] at hstep
      simp only [timedStep] at hstep
      split at hstep <;> cases hstep
      refine h.frame hnow rfl (fun i p hi => ?_) (fun i p hi => ?_) (List.Subset.refl _)
      · rcases getElem?_snoc_cases hi with hi | ⟨-, rfl⟩
        · obtain ⟨hidle, hactivity⟩ := h.session i p hi
          exact ⟨hidle, hactivity.trans hnow⟩
        · exact ⟨rfl, le_refl _⟩
      · exact ⟨p, by rw [List.getElem?_append_left (List.getElem?_eq_some_iff.mp hi).1, hi], le_refl _⟩
  | remove i =>
      rw [he] at hstep
      simp only [timedStep] at hstep
      split at hstep <;> cases hstep
      exact h.aside hnow rfl rfl (List.Subset.refl _)
  | stop =>
      rw [he] at hstep
      cases hstep
      exact h.aside hnow rfl rfl (List.Subset.refl _)
  | session i ev =>
      rw [he] at hstep
      exact h.sessionStep hnow hstep
  | cleanup =>
      rw [he] at hstep
      exact h.cleanupStep hnow hstep

theorem starts_found {s : Nat × Nat} (hs : d.starts e.2 = some s) : s ∈ d.task.found := by
  unfold starts at hs
  split at hs
  · split at hs
    · rename_i htask
      rw [htask]
      cases hs
      exact List.mem_cons_self
    · cases hs
  · cases hs

/-- Since only later activity can be recent, it decides whether the session is still idle. -/
theorem FindsIdle.closesIdle_iff (h : FindsIdle timeouts c) :
    ClosesIdle timeouts c e ↔ QuietSinceFound timeouts c e := by
  constructor
  · intro hcloses s hs hnow done hdone heq _
    exact hcloses s hs hnow done hdone heq
  · intro hquiet s hs hnow done hdone heq
    obtain ⟨hle, hfound⟩ := h.found s (starts_found hs)
    rcases hfound done hdone heq with hlate | hearly
    · exact hquiet s hs hnow done hdone heq hlate
    · omega

end Cleanup

end NetworkSystem
