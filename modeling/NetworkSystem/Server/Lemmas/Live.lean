import NetworkSystem.Server.Lemmas.Books

/-!
# Live tasks and tasks that were torn down

How many session tasks are live, against the limit, and how many ended before their end, against the
events that tear a task down.
-/

namespace NetworkSystem

open Steps TaskPool

variable {config : ServerConfig} {s s' : TcpServer} {e : ServerEvent}

structure TcpServer.WellFormed (config : ServerConfig) (s : TcpServer) : Prop where
  phased : s.Phased
  accounted : s.Accounted config
  tracked : s.Tracked
  listed : s.Listed

theorem TcpServer.WellFormed.withConfig (config : ServerConfig) :
    (TcpServer.withConfig config).WellFormed config where
  phased := .withConfig config
  accounted := .withConfig config
  tracked := by intro i t ht; cases ht
  listed := by intro i hi; cases hi

theorem TcpServer.WellFormed.step (h : s.WellFormed config) (hs : TcpServer.step config s e = some s') :
    s'.WellFormed config := by
  have hs := TcpServer.step_step hs
  exact ⟨h.phased.step hs, h.accounted.step h.phased hs, h.tracked.step h.phased hs, h.listed.step hs⟩

theorem TcpServer.WellFormed.run {es : List ServerEvent}
    (hr : run (TcpServer.step config) (TcpServer.withConfig config) es = some s) : s.WellFormed config :=
  run_invariant (fun _ _ _ h hs => h.step hs) (.withConfig config) hr

/-! ## The limit -/

theorem TcpServer.step_acquire (ha : s.accept = .accepted) (hp : s.books.permits ≠ 0) :
    TcpServer.step config s .accept =
      some { s with books := { s.books with permits := s.books.permits - 1 }, accept := .permitted } := by
  simp only [TcpServer.step, TcpServer.acceptStep, ha, if_neg hp]

theorem TcpServer.step_reject (ha : s.accept = .accepted) (hp : s.books.permits = 0) :
    TcpServer.step config s .accept = some { s with accept := .waiting } := by
  simp only [TcpServer.step, TcpServer.acceptStep, ha, if_pos hp]

theorem TcpServer.liveTasks_eq (s : TcpServer) :
    s.liveTasks = (s.tasks.map fun t => t.live.toNat).sum := by
  unfold TcpServer.liveTasks
  induction s.tasks with
  | nil => rfl
  | cons t ts ih =>
      rw [List.countP_cons, List.map_cons, List.sum_cons, ih, Nat.add_comm]
      cases t.live <;> rfl

theorem TcpServer.liveTasks_set {i : Nat} {t t' : SessionTask} (hi : s.tasks[i]? = some t)
    (ht : s'.tasks = s.tasks.set i t') (hl : t'.live = true → t.live = true) :
    s'.liveTasks ≤ s.liveTasks := by
  have hsum := sum_map_set (fun t : SessionTask => t.live.toNat) t' hi
  have hle : t'.live.toNat ≤ t.live.toNat := by
    cases h : t'.live with
    | false => exact Nat.zero_le _
    | true => rw [hl h]
  rw [TcpServer.liveTasks_eq, TcpServer.liveTasks_eq, ht]
  omega

/-- A connection that has its permit and waits for its task. -/
def AcceptStage.pending : AcceptStage → Nat
  | .permitted | .counted | .ready => 1
  | _ => 0

/-- The tasks that are live or about to be spawned are within the limit. -/
def TcpServer.WithinLimit (config : ServerConfig) (s : TcpServer) : Prop :=
  s.liveTasks + s.accept.pending ≤ config.maxConnections

theorem TcpServer.WithinLimit.withConfig (config : ServerConfig) :
    (TcpServer.withConfig config).WithinLimit config := Nat.zero_le _

theorem TcpServer.WithinLimit.liveTasks (h : s.WithinLimit config) :
    s.liveTasks ≤ config.maxConnections := Nat.le_trans (Nat.le_add_right _ _) h

theorem TcpServer.WithinLimit.le (h : s.WithinLimit config) (ht : s'.liveTasks ≤ s.liveTasks)
    (ha : s'.accept.pending ≤ s.accept.pending) : s'.WithinLimit config :=
  Nat.le_trans (Nat.add_le_add ht ha) h

theorem TcpServer.WithinLimit.set (h : s.WithinLimit config) {i : Nat} {t t' : SessionTask}
    (hi : s.tasks[i]? = some t) (ht : s'.tasks = s.tasks.set i t') (ha : s'.accept = s.accept)
    (hst : t'.stage = t.stage) : s'.WithinLimit config :=
  h.le (TcpServer.liveTasks_set hi ht fun hl => SessionTask.live_congr hst ▸ hl) (by rw [ha])

theorem TcpServer.Accounted.permits_le (h : s.Accounted config) :
    s.books.permits ≤ config.maxConnections := by
  have := h.permits
  omega

theorem TcpServer.WithinLimit.step (h : s.WithinLimit config) (hb : s.Accounted config)
    (hC : AcceptsBelowLimit config s e) (hs : ServerStep s e s') : s'.WithinLimit config := by
  cases hs with
  | task hi ht => exact h.le (TcpServer.liveTasks_set hi rfl fun _ => ht.live) (Nat.le_refl _)
  | close hi ht => exact h.set hi rfl rfl (SessionTask.close_eq ht).1
  | closeNext hc hi ht => exact h.set hi rfl rfl (SessionTask.close_eq ht).1
  | abort hc hi => exact h.set hi rfl rfl (SessionTask.abort_eq _).1
  | acquire ha hne =>
      -- a permit was free, so the limit is not zero
      have hpos := hb.permits_le
      rcases hC rfl ha with hzero | hlt
      · omega
      · exact hlt
  | spawn ha =>
      have hroom : s.liveTasks + 1 ≤ config.maxConnections := by
        have := h
        rwa [TcpServer.WithinLimit, ha] at this
      show TcpServer.liveTasks { s with tasks := s.tasks ++ [{}], accept := _ } + 0 ≤ _
      rw [TcpServer.liveTasks, List.countP_append]
      exact hroom
  | count ha | setup ha => exact h.le (Nat.le_refl _) (by rw [ha]; exact Nat.le_refl 1)
  | start | connection | reject | setupFail | uncount | unwind | handOver | track | prune | shutdown
  | exit => exact h.le (Nat.le_refl _) (Nat.zero_le _)
  | _ => exact h

theorem sum_permits_tasks (l : List SessionTask) : (l.map SessionTask.permits).sum = 0 := by
  apply List.sum_eq_zero
  intro n hn
  obtain ⟨t, _, rfl⟩ := List.mem_map.mp hn
  unfold SessionTask.permits
  split <;> rfl

theorem TcpServer.Accounted.permits_accepted (h : s.Accounted config) (ha : s.accept = .accepted) :
    s.books.permits = config.maxConnections := by
  simpa only [ha, AcceptStage.permits, sum_permits_tasks, Nat.add_zero] using h.permits

/-! ## Tasks that were torn down -/

def SessionTask.torn (t : SessionTask) : Nat :=
  if t.stage = .cancelled ∨ t.stage = .panicked then 1 else 0

theorem SessionTask.torn_congr {t t' : SessionTask} (h : t'.stage = t.stage) : t'.torn = t.torn := by
  rw [torn, torn, h]

theorem SessionTask.torn_live {t : SessionTask} (h : t.live = true) : t.torn = 0 := by
  apply if_neg
  rintro (hs | hs) <;> rw [live, hs] at h <;> cases h

theorem SessionTask.counted_ended {t : SessionTask} (h : t.live = false) : t.counted = t.torn := by
  rw [live, Bool.not_eq_false'] at h
  unfold counted torn
  cases hs : t.stage with
  | finished | cancelled | panicked => rfl
  | _ => rw [hs] at h; cases h

theorem TaskStep.torn {i : Nat} {b b' : Books} {t t' : SessionTask} {e : TaskEvent}
    (h : TaskStep i b t e b' t') :
    t'.torn = t.torn + (ServerEvent.task i e).tearsDown.toNat := by
  have hlive := h.live
  rw [SessionTask.torn_live hlive]
  cases h with
  | poll hl hp ha => exact SessionTask.torn_live hl
  | suspend hp hw => exact SessionTask.torn_live hlive
  | quiet hp hq he =>
      obtain ⟨hph, _, hne⟩ := TaskStage.quietTo_phase hq
      rcases he with rfl | rfl <;>
        exact SessionTask.torn_live (SessionTask.live_iff.mpr fun hend => hne (hph.symm.trans hend))
  | _ => rfl

theorem TcpServer.torn_step (hs : ServerStep s e s') :
    (s'.tasks.map SessionTask.torn).sum = (s.tasks.map SessionTask.torn).sum + e.tearsDown.toNat := by
  cases hs with
  | @task i t t' b e hi ht =>
      have hsum := sum_map_set SessionTask.torn t' hi
      have hstep := ht.torn
      show ((s.tasks.set i t').map SessionTask.torn).sum = _
      omega
  | close hi ht => exact sum_map_set_of_eq _ hi (SessionTask.torn_congr (SessionTask.close_eq ht).1)
  | closeNext hc hi ht =>
      exact sum_map_set_of_eq _ hi (SessionTask.torn_congr (SessionTask.close_eq ht).1)
  | abort hc hi => exact sum_map_set_of_eq _ hi (SessionTask.torn_congr (SessionTask.abort_eq _).1)
  | spawn ha =>
      show ((s.tasks ++ [({} : SessionTask)]).map SessionTask.torn).sum = _
      rw [List.map_append, List.sum_append]
      rfl
  | _ => rfl

/-! ## A server that has stopped -/

/-- When `stop` has returned and the tasks that it aborted are torn down, no task is live. -/
theorem TcpServer.WellFormed.ended (h : s.WellFormed config) (hs : s.Stopped)
    (htorn : ∀ t ∈ s.tasks, t.aborted = true → t.live = false) {t : SessionTask} (ht : t ∈ s.tasks) :
    t.live = false := by
  by_contra hl
  rw [Bool.not_eq_false] at hl
  obtain ⟨i, hi⟩ := List.getElem?_of_mem ht
  have hended := htorn t ht (h.tracked.aborted h.phased hs hi hl)
  rw [hl] at hended
  cases hended

/-- Then the connection count is the number of tasks that were torn down, and every permit is back. -/
theorem TcpServer.WellFormed.books (h : s.WellFormed config) (hs : s.Stopped)
    (hended : ∀ t ∈ s.tasks, t.live = false) :
    s.books.connectionCount = (s.tasks.map SessionTask.torn).sum ∧
      s.books.permits = config.maxConnections := by
  obtain ⟨hpermits, hcounts⟩ := AcceptStage.permits_closed (h.phased.of_stopped hs).1
  have htasks : s.tasks.map SessionTask.counted = s.tasks.map SessionTask.torn :=
    List.map_congr_left fun t ht => SessionTask.counted_ended (hended t ht)
  constructor
  · rw [h.accounted.count, hcounts, htasks, Nat.zero_add]
  · have := h.accounted.permits
    rwa [hpermits, sum_permits_tasks] at this

theorem TcpServer.Listed.sessions (h : s.Listed) (hended : ∀ t ∈ s.tasks, t.live = false)
    (htorn : (s.tasks.map SessionTask.torn).sum = 0) : s.books.sessions = [] := by
  apply List.eq_nil_iff_forall_not_mem.mpr
  intro i hi
  obtain ⟨t, ht, hlist⟩ := h i hi
  have hmem := List.mem_of_getElem? ht
  have hzero : t.torn = 0 := List.sum_eq_zero_iff_forall_eq_nat.mp htorn _ (List.mem_map_of_mem hmem)
  rw [← SessionTask.counted_ended (hended t hmem)] at hzero
  cases hstage : t.stage with
  | finished => rw [hstage] at hlist; cases hlist
  | _ => rw [SessionTask.counted, hstage] at hzero; cases hzero

/-- A run has torn down as many tasks as its events say. -/
theorem TcpServer.torn_run {es : List ServerEvent}
    (hr : run (TcpServer.step config) (TcpServer.withConfig config) es = some s) :
    (s.tasks.map SessionTask.torn).sum = es.countP ServerEvent.tearsDown := by
  have hcount := run_count (f := fun s : TcpServer => (s.tasks.map SessionTask.torn).sum)
    (fun _ _ _ hs => TcpServer.torn_step (TcpServer.step_step hs)) hr
  rw [hcount]
  exact Nat.zero_add _

end NetworkSystem
