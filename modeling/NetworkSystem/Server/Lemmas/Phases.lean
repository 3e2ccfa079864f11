import NetworkSystem.Lib.TaskPool
import NetworkSystem.Server.Lemmas.Step

/-!
# Starting and stopping

While `stop` runs the accept loop has ended, and when `stop` has returned every session task that is live
was aborted.
-/

namespace NetworkSystem

open TaskPool

def AcceptStage.closed : AcceptStage → Bool
  | .absent | .exited => true
  | _ => false

/-- The accept loop runs and has not seen the shutdown signal. -/
def AcceptStage.serving : AcceptStage → Bool
  | .absent | .exiting | .exited => false
  | _ => true

theorem AcceptStage.not_closed_of_serving {a : AcceptStage} (h : a.serving = true) : a.closed = false := by
  cases a with
  | absent | exiting | exited => cases h
  | _ => rfl

def TcpServer.Phased (s : TcpServer) : Prop :=
  match s.control with
  | .idle =>
      if s.running then s.shutdownSent = false ∧ s.accept.serving = true
      else s.accept.closed = true ∧ s.sessionTasks = []
  | .signalling => s.shutdownSent = false ∧ s.accept.serving = true
  | .joiningServer => True
  | .joiningCleanup | .snapshotting | .closing _ _ | .clearing | .taking => s.accept.closed = true
  | .aborting _ => s.accept.closed = true ∧ s.sessionTasks = []

variable {s s' : TcpServer} {e : ServerEvent}

theorem TcpServer.Phased.of_stopped (h : s.Phased) (hs : s.Stopped) :
    s.accept.closed = true ∧ s.sessionTasks = [] := by
  obtain ⟨hc, hr⟩ := hs
  simpa only [TcpServer.Phased, hc, hr, Bool.false_eq_true, if_false] using h

theorem TcpServer.Phased.serving (h : s.Phased) (ha : s.accept.serving = true)
    (hc : s'.control = s.control) (hr : s'.running = s.running) (hs : s'.shutdownSent = s.shutdownSent)
    (ha' : s'.accept.serving = true) : s'.Phased := by
  have hclosed := AcceptStage.not_closed_of_serving ha
  unfold TcpServer.Phased at h ⊢
  rw [hc]
  cases hcon : s.control with
  | idle =>
      simp only [hcon] at h ⊢
      rw [hr, hs]
      cases hrun : s.running with
      | true => simp only [hrun, if_true] at h ⊢; exact ⟨h.1, ha'⟩
      | false =>
          simp only [hrun, Bool.false_eq_true, if_false, hclosed, false_and] at h
  | signalling => simp only [hcon] at h ⊢; rw [hs]; exact ⟨h.1, ha'⟩
  | joiningServer => trivial
  | aborting todo => simp only [hcon, hclosed, Bool.false_eq_true, false_and] at h
  | _ => simp only [hcon, hclosed, Bool.false_eq_true] at h

theorem TcpServer.Phased.joining (h : s.Phased) (ha : s.accept = .exiting) :
    s.control = .joiningServer := by
  unfold TcpServer.Phased at h
  cases hcon : s.control with
  | joiningServer => rfl
  | idle =>
      simp only [hcon] at h
      cases hrun : s.running <;> simp [hrun, ha, AcceptStage.serving, AcceptStage.closed] at h
  | signalling => simp [hcon, ha, AcceptStage.serving] at h
  | aborting todo => simp [hcon, ha, AcceptStage.closed] at h
  | _ => simp [hcon, ha, AcceptStage.closed] at h

/-- The shutdown signal is sent by `stop`, which waits for the accept loop. -/
theorem TcpServer.Phased.signalled (h : s.Phased) (ha : s.accept.serving = true)
    (hs : s.shutdownSent = true) : s.control = .joiningServer := by
  have hclosed := AcceptStage.not_closed_of_serving ha
  unfold TcpServer.Phased at h
  cases hcon : s.control with
  | joiningServer => rfl
  | idle => simp only [hcon] at h; cases hrun : s.running <;> simp [hrun, hs, hclosed] at h
  | signalling => simp [hcon, hs] at h
  | aborting todo => simp [hcon, hclosed] at h
  | _ => simp [hcon, hclosed] at h

theorem TcpServer.Phased.withConfig (config : ServerConfig) : (TcpServer.withConfig config).Phased :=
  ⟨rfl, rfl⟩

/-- `stop` closes on. -/
theorem TcpServer.afterClose_eq (i : Nat) (todo : List Nat) (part : ClosePart) :
    ∃ todo' part', TcpServer.afterClose i todo part = .closing todo' part' := by
  cases part <;> exact ⟨_, _, rfl⟩

theorem TcpServer.Phased.step (h : s.Phased) (hs : ServerStep s e s') : s'.Phased := by
  cases hs with
  | task hi ht => exact h
  | close hi ht => exact h
  | hold hi => exact h
  | release hi => exact h
  | start hc hr =>
      simp only [TcpServer.Phased, hc, if_true, true_and]
      rfl
  | stop hc hr => simpa only [TcpServer.Phased, hc, hr, if_true] using h
  | stopIdle hc hr => exact h
  | signal hc => trivial
  | joinServer hc ha => rcases ha with ha | ha <;> simp only [TcpServer.Phased, ha] <;> rfl
  | joinCleanup hc | snapshot hc | closed hc | clear hc | abort hc =>
      simpa only [TcpServer.Phased, hc] using h
  | @closeNext i todo part t t' hc hi ht =>
      obtain ⟨todo', part', hnext⟩ := TcpServer.afterClose_eq i todo part
      simpa only [TcpServer.Phased, hc, hnext] using h
  | take hc => simpa only [TcpServer.Phased, hc, and_true] using h
  | stopped hc =>
      simpa only [TcpServer.Phased, hc, Bool.false_eq_true, if_false] using h
  | connection ha | reject ha | acquire ha | count ha | setup ha | setupFail ha | uncount ha | unwind ha
  | spawn ha | handOver ha | track ha | prune ha => exact h.serving (by rw [ha]; rfl) rfl rfl rfl rfl
  | shutdown ha hs =>
      have hc := h.signalled (by rw [ha]; rfl) hs
      simp only [TcpServer.Phased, hc]
  | exit ha =>
      have hc := h.joining ha
      simp only [TcpServer.Phased, hc]
  | cleanupExit hr => exact h

/-! ## The handles of the session tasks -/

/-- Somebody who will abort or track task `i` has its handle. -/
def TcpServer.Owned (s : TcpServer) (i : Nat) : Prop :=
  i ∈ s.sessionTasks ∨ s.accept = .spawned i ∨ s.accept = .handed i ∨
    ∃ todo, s.control = .aborting todo ∧ i ∈ todo

/-- The handle of every live task is kept until the task is aborted. -/
def TcpServer.Tracked (s : TcpServer) : Prop :=
  ∀ i t, s.tasks[i]? = some t → t.live = true → t.aborted = false → s.Owned i

theorem TaskStep.aborted {i : Nat} {b b' : Books} {t t' : SessionTask} {e : TaskEvent}
    (h : TaskStep i b t e b' t') : t'.aborted = t.aborted := by
  cases h <;> rfl

theorem TcpServer.Owned.accept {j : Nat} (h : s.Owned j) (ht : s'.sessionTasks = s.sessionTasks)
    (hc : s'.control = s.control) (hs : ∀ i, s.accept ≠ .spawned i) (hh : ∀ i, s.accept ≠ .handed i) :
    s'.Owned j := by
  rcases h with h | h | h | h
  · exact Or.inl (ht ▸ h)
  · exact absurd h (hs _)
  · exact absurd h (hh _)
  · exact Or.inr (Or.inr (Or.inr (hc ▸ h)))

theorem TcpServer.Owned.control {j : Nat} (h : s.Owned j) (ht : s'.sessionTasks = s.sessionTasks)
    (ha : s'.accept = s.accept) (hc : ∀ todo, s.control ≠ .aborting todo) : s'.Owned j := by
  rcases h with h | h | h | ⟨todo, h, _⟩
  · exact Or.inl (ht ▸ h)
  · exact Or.inr (Or.inl (ha.trans h))
  · exact Or.inr (Or.inr (Or.inl (ha.trans h)))
  · exact absurd h (hc _)

theorem SessionTask.live_congr {t t' : SessionTask} (h : t'.stage = t.stage) : t'.live = t.live := by
  rw [SessionTask.live, SessionTask.live, h]

/-- A live task that was not aborted was one before, or was spawned just now. -/
theorem ServerStep.unaborted (hs : ServerStep s e s') {i : Nat} {t : SessionTask}
    (hi : s'.tasks[i]? = some t) (hl : t.live = true) (ha : t.aborted = false) :
    (∃ u, s.tasks[i]? = some u ∧ u.live = true ∧ u.aborted = false) ∨ s'.accept = .spawned i := by
  cases hs with
  | task hj ht =>
      rcases getElem?_set_cases hi with ⟨rfl, rfl⟩ | ⟨_, hi⟩
      · exact Or.inl ⟨_, hj, ht.live, ht.aborted ▸ ha⟩
      · exact Or.inl ⟨t, hi, hl, ha⟩
  | close hj ht | closeNext _ hj ht =>
      rcases getElem?_set_cases hi with ⟨rfl, rfl⟩ | ⟨_, hi⟩
      · obtain ⟨hst, _, hab, _⟩ := SessionTask.close_eq ht
        exact Or.inl ⟨_, hj, SessionTask.live_congr hst ▸ hl, hab ▸ ha⟩
      · exact Or.inl ⟨t, hi, hl, ha⟩
  | abort hc hj =>
      rcases getElem?_set_cases hi with ⟨rfl, rfl⟩ | ⟨_, hi⟩
      · rw [SessionTask.live_congr (SessionTask.abort_eq _).1] at hl
        rw [SessionTask.abort, if_pos hl] at ha
        cases ha
      · exact Or.inl ⟨t, hi, hl, ha⟩
  | spawn hr =>
      rcases getElem?_snoc_cases hi with hi | ⟨rfl, _⟩
      · exact Or.inl ⟨t, hi, hl, ha⟩
      · exact Or.inr rfl
  | _ => exact Or.inl ⟨t, hi, hl, ha⟩

/-- The handle of a live task stays with somebody until it is used to abort the task. -/
theorem TcpServer.Owned.step {i : Nat} (ho : s.Owned i) (hs : ServerStep s e s') (hp : s.Phased)
    (hl : s.taskLive i = true) :
    s'.Owned i ∨ ∃ t, s'.tasks[i]? = some t ∧ (t.live = true → t.aborted = true) := by
  cases hs with
  | start hc hr =>
      have hclosed := (hp.of_stopped ⟨hc, hr⟩).1
      refine Or.inl (ho.accept rfl rfl ?_ ?_)
      · intro i ha; rw [ha] at hclosed; cases hclosed
      · intro i ha; rw [ha] at hclosed; cases hclosed
  | stop hc | signal hc | joinServer hc | joinCleanup hc | snapshot hc | closeNext hc | closed hc
  | clear hc => exact Or.inl (ho.control rfl rfl (by rw [hc]; exact nofun))
  | take hc =>
      rcases ho with ho | ho | ho | ⟨todo, ho, _⟩
      · exact Or.inl (Or.inr (Or.inr (Or.inr ⟨_, rfl, ho⟩)))
      · exact Or.inl (Or.inr (Or.inl ho))
      · exact Or.inl (Or.inr (Or.inr (Or.inl ho)))
      · rw [hc] at ho; cases ho
  | @abort j todo t hc hj =>
      rcases ho with ho | ho | ho | ⟨todo', ho, hm⟩
      · exact Or.inl (Or.inl ho)
      · exact Or.inl (Or.inr (Or.inl ho))
      · exact Or.inl (Or.inr (Or.inr (Or.inl ho)))
      · rw [hc] at ho
        cases ho
        rcases List.mem_cons.mp hm with rfl | hm
        · refine Or.inr ⟨_, List.getElem?_set_self (List.getElem?_eq_some_iff.mp hj).1, fun hl => ?_⟩
          rw [SessionTask.live_congr t.abort_eq.1] at hl
          rw [SessionTask.abort, if_pos hl]
        · exact Or.inl (Or.inr (Or.inr (Or.inr ⟨todo, rfl, hm⟩)))
  | stopped hc =>
      rcases ho with ho | ho | ho | ⟨todo, ho, hm⟩
      · exact Or.inl (Or.inl ho)
      · exact Or.inl (Or.inr (Or.inl ho))
      · exact Or.inl (Or.inr (Or.inr (Or.inl ho)))
      · rw [hc] at ho; cases ho; cases hm
  | handOver ha =>
      rcases ho with ho | ho | ho | ho
      · exact Or.inl (Or.inl ho)
      · rw [ha] at ho; cases ho; exact Or.inl (Or.inr (Or.inr (Or.inl rfl)))
      · rw [ha] at ho; cases ho
      · exact Or.inl (Or.inr (Or.inr (Or.inr ho)))
  | track ha =>
      rcases ho with ho | ho | ho | ho
      · exact Or.inl (Or.inl (List.mem_append_left _ ho))
      · rw [ha] at ho; cases ho
      · rw [ha] at ho; cases ho
        exact Or.inl (Or.inl (List.mem_append_right _ (List.mem_singleton_self _)))
      · exact Or.inl (Or.inr (Or.inr (Or.inr ho)))
  | prune ha =>
      rcases ho with ho | ho | ho | ho
      · exact Or.inl (Or.inl (List.mem_filter.mpr ⟨ho, hl⟩))
      · rw [ha] at ho; cases ho
      · rw [ha] at ho; cases ho
      · exact Or.inl (Or.inr (Or.inr (Or.inr ho)))
  | connection ha | reject ha | acquire ha | count ha | setup ha | setupFail ha | uncount ha | unwind ha
  | spawn ha | shutdown ha | exit ha =>
      exact Or.inl (ho.accept rfl rfl (by rw [ha]; exact nofun) (by rw [ha]; exact nofun))
  | _ => exact Or.inl ho

theorem TcpServer.Tracked.step (h : s.Tracked) (hp : s.Phased) (hs : ServerStep s e s') : s'.Tracked := by
  intro i t hi hl ha
  rcases hs.unaborted hi hl ha with ⟨u, hu, hul, hua⟩ | hnew
  · have hlive : s.taskLive i = true := by rw [TcpServer.taskLive, hu]; exact hul
    rcases (h i u hu hul hua).step hs hp hlive with ho | ⟨v, hv, hab⟩
    · exact ho
    · rw [hi] at hv
      cases hv
      rw [hab hl] at ha
      cases ha
  · exact Or.inr (Or.inl hnew)

/-- When `stop` has returned, every task that is live was aborted. -/
theorem TcpServer.Tracked.aborted (h : s.Tracked) (hp : s.Phased) (hs : s.Stopped) {i : Nat}
    {t : SessionTask} (hi : s.tasks[i]? = some t) (hl : t.live = true) : t.aborted = true := by
  obtain ⟨hclosed, hhandles⟩ := hp.of_stopped hs
  by_contra ha
  rcases h i t hi hl (Bool.not_eq_true _ ▸ ha) with ho | ho | ho | ⟨todo, ho, _⟩
  · rw [hhandles] at ho; cases ho
  · rw [ho] at hclosed; cases hclosed
  · rw [ho] at hclosed; cases hclosed
  · rw [hs.1] at ho; cases ho

end NetworkSystem
