import NetworkSystem.Server.Lemmas.Cleanup
import NetworkSystem.Server.Lemmas.Closes
import NetworkSystem.Server.Lemmas.Metrics

/-!
# What a server promises

The limit on connections, what `stop` and a panic leave behind, and the callbacks of a session, over every run
of the accept loop, of `start` and `stop` and of the session tasks. The cleanup task is a system of its own,
with all calls on the sessions.
-/

namespace NetworkSystem

open Steps TcpServer

variable {config : ServerConfig} {es : List ServerEvent} {s : TcpServer}

/-- One connection is accepted and handed to its task. -/
def acceptConnection : List ServerEvent :=
  [.connection, .accept, .accept, .setup true, .accept, .accept, .accept, .accept]

def onTask (i : Nat) (es : List TaskEvent) : List ServerEvent := es.map (.task i)

/-! ## The limit on connections -/

/-- In a run, the live tasks stay within the limit and a connection that is accepted at the limit is
dropped, exactly when no connection is accepted at the limit: the code enforces a limit of zero only, since
a permit is back as soon as `handle_connection` has returned. -/
theorem connection_limit (config : ServerConfig) (es : List ServerEvent) :
    (Always (step config) (fun s => s.liveTasks ≤ config.maxConnections) (withConfig config) es ∧
        Along (step config) (RejectsAtLimit config) (withConfig config) es) ↔
      Along (step config) (AcceptsBelowLimit config) (withConfig config) es := by
  constructor
  · rintro ⟨_, hreject⟩
    refine along_of_preserves (I := fun s => s.WellFormed config) (fun _ _ _ h _ hs => h.step hs) ?_
      (.withConfig config) hreject
    rintro s e h hreject rfl ha
    by_contra hlimit
    push Not at hlimit
    obtain ⟨hpos, hfull⟩ := hlimit
    have hfree : s.books.permits ≠ 0 := by rw [h.accounted.permits_accepted ha]; exact hpos
    cases hreject rfl ha hfull _ (step_acquire ha hfree)
  · intro hbelow
    have hkeep : ∀ s e s', s.WellFormed config ∧ s.WithinLimit config → AcceptsBelowLimit config s e →
        step config s e = some s' → s'.WellFormed config ∧ s'.WithinLimit config := by
      rintro s e s' ⟨h, hw⟩ hC hs
      exact ⟨h.step hs, hw.step h.accounted hC (step_step hs)⟩
    have hfresh := And.intro (WellFormed.withConfig config) (WithinLimit.withConfig config)
    refine ⟨always_of_preserves hkeep (fun s h => h.2.liveTasks) hfresh hbelow,
      along_of_preserves hkeep ?_ hfresh hbelow⟩
    rintro s e ⟨h, _⟩ hC rfl ha hfull s' hs
    have hzero : config.maxConnections = 0 := by
      rcases hC rfl ha with hzero | hlt
      · exact hzero
      · omega
    have hnone : s.books.permits = 0 := by rw [h.accounted.permits_accepted ha]; exact hzero
    rw [step_reject ha hnone, Option.some.injEq] at hs
    rw [← hs]

def twoConnections : List ServerEvent := .start :: (acceptConnection ++ acceptConnection)

/-- With a limit of one connection, both have a live task. -/
theorem connection_over_limit :
    (run (step { maxConnections := 1 }) (withConfig { maxConnections := 1 }) twoConnections).map liveTasks = some 2 ∧
      ¬ Always (step { maxConnections := 1 }) (fun s => s.liveTasks ≤ 1) (withConfig { maxConnections := 1 })
        twoConnections := by
  have hrun : (run (step { maxConnections := 1 }) (withConfig { maxConnections := 1 }) twoConnections).map
      liveTasks = some 2 := by decide
  refine ⟨hrun, fun h => ?_⟩
  obtain ⟨s, hs, htwo⟩ := Option.map_eq_some_iff.mp hrun
  have hle : s.liveTasks ≤ 1 := h.last hs
  omega

/-! ## What `stop` leaves behind -/

/-- Once `stop` has returned and the tasks that it aborted are torn down, nothing is left behind exactly when no
task was torn down before its own end, by an abort or by a panic, and every session that somebody outside still has
was found in the list by a `stop`, or closed by its owner. -/
theorem stop_leaves_nothing (hr : run (step config) (withConfig config) es = some s) (hs : s.Stopped)
    (htorn : ∀ t ∈ s.tasks, t.aborted = true → t.live = false) :
    s.LeavesNothing config ↔ (∀ e ∈ es, e.tearsDown = false) ∧ ClosesHeld config es s := by
  have h := WellFormed.run hr
  have hended : ∀ t ∈ s.tasks, t.live = false := fun t ht => h.ended hs htorn ht
  obtain ⟨hcount, hpermits⟩ := h.books hs hended
  rw [torn_run hr] at hcount
  constructor
  · intro hnothing
    refine ⟨fun e he => ?_, (closed_iff hr hs hended hnothing.sessions).mp hnothing.closed⟩
    rw [hnothing.count] at hcount
    have hnone := List.countP_eq_zero.mp hcount.symm e he
    rwa [Bool.not_eq_true] at hnone
  · rintro ⟨hnone, hasked⟩
    have hzero : es.countP ServerEvent.tearsDown = 0 :=
      List.countP_eq_zero.mpr fun e he => by rw [hnone e he]; exact nofun
    have hsessions := h.listed.sessions hended ((torn_run hr).trans hzero)
    refine ⟨hsessions, (closed_iff hr hs hended hsessions).mpr hasked, ?_, hcount.trans hzero, hpermits⟩
    exact List.countP_eq_zero.mpr fun t ht => by rw [hended t ht]; exact nofun

/-- A client connects and sends a message, and its `on_message` is called. -/
def connectAndSend : List ServerEvent :=
  .start :: acceptConnection ++
    onTask 0 [.poll, .go, .go, .go, .go, .go, .go, .receive ⟨[1]⟩]

/-- `stop` runs, with so many statements behind its two joins. -/
def stopServer (statements : Nat) : List ServerEvent :=
  [.stop, .control, .shutdownSignal, .accept, .control, .cleanupExit] ++
    List.replicate statements .control

/-- The client disconnects, the owner of a list of the sessions closes its session, and the server stops. -/
def stopAfterDisconnect : List ServerEvent :=
  connectAndSend ++ [.hold 0] ++ onTask 0 [.go, .go, .go, .receiveFailed, .go, .go, .go, .go] ++
    [.close 0 .active, .close 0 .writeHalf, .close 0 .readHalf] ++ stopServer 7

theorem stop_after_disconnect :
    ∃ s, run (step {}) (withConfig {}) stopAfterDisconnect = some s ∧ s.LeavesNothing {} := by
  have hstops : ∃ s ∈ run (step {}) (withConfig {}) stopAfterDisconnect,
      s.Stopped ∧ (∀ t ∈ s.tasks, t.aborted = true → t.live = false) ∧ s.held = [0] := by decide
  obtain ⟨s, hr, hs, htorn, hheld⟩ := hstops
  have hasked : ClosesHeld {} stopAfterDisconnect s := by
    intro i hi part
    rw [hheld, List.mem_singleton] at hi
    subst hi
    exact Or.inl (by cases part <;> decide)
  exact ⟨s, hr, (stop_leaves_nothing hr hs htorn).mpr ⟨by decide, hasked⟩⟩

/-- The server stops while `on_message` waits. -/
def stopDuringMessage : List ServerEvent :=
  connectAndSend ++ onTask 0 [.suspend] ++ stopServer 10 ++ [.task 0 .cancel]

theorem stop_leaves_connection :
    ∃ s ∈ run (step {}) (withConfig {}) stopDuringMessage,
      s.Stopped ∧ (∀ t ∈ s.tasks, t.aborted = true → t.live = false) ∧ ¬ s.LeavesNothing {} := by
  have hcount : ∃ s ∈ run (step {}) (withConfig {}) stopDuringMessage,
      s.Stopped ∧ (∀ t ∈ s.tasks, t.aborted = true → t.live = false) ∧ s.books.connectionCount = 1 := by
    decide
  obtain ⟨s, hr, hs, htorn, hcount⟩ := hcount
  refine ⟨s, hr, hs, htorn, fun h => ?_⟩
  have hzero := h.count
  omega

/-! ## What a panic leaves behind -/

/-- With a `read_timeout` of at most a third of `Duration::MAX`, no `receive` panics in any run. -/
theorem receives_without_panic (hfits : config.readTimeout * 3 ≤ durationMax)
    (hr : run (step config) (withConfig config) es = some s) : ∀ e ∈ es, e.overflows = false := by
  refine forall_of_along (fun _ e _ s₁ _ _ s₂ hs => ?_) hr
  unfold ServerEvent.overflows
  split
  · obtain ⟨t, -, hs⟩ := Option.bind_eq_some_iff.mp hs
    obtain ⟨⟨b, t'⟩, ht, -⟩ := Option.map_eq_some_iff.mp hs
    have hlarge := SessionTask.step_overflow ht
    omega
  · rfl

/-- In every settled state that a run without a stop reaches, the connection count is the number of live tasks
and the session list has exactly their sessions, if and only if no callback and no `receive` has panicked. -/
theorem server_tracks_live (config : ServerConfig) (es : List ServerEvent) (s : TcpServer)
    (hr : run (step config) (withConfig config) es = some s)
    (hstop : Along (step config) NotStopped (withConfig config) es) (hs : s.Settled) :
    s.TracksLive ↔ ∀ e ∈ es, e.panics = false ∧ e.overflows = false := by
  have h := WellFormed.run hr
  obtain ⟨hserving, hevents⟩ := Serving.run hr hstop
  have hcount := h.count_settled hs
  have htorn := torn_run hr
  constructor
  · intro htracks e he
    have hzero : es.countP ServerEvent.tearsDown = 0 := by
      rw [htracks.count, htorn] at hcount
      omega
    rw [← hevents e he, ← Bool.not_eq_true]
    exact List.countP_eq_zero.mp hzero e he
  · intro hnone
    have hzero : (s.tasks.map SessionTask.torn).sum = 0 := by
      rw [htorn, List.countP_eq_zero]
      intro e he
      rw [(hevents e he).mpr (hnone e he)]
      exact nofun
    refine ⟨by rw [hcount, hzero, Nat.add_zero], ?_, hserving.once⟩
    have hlistable : ∀ (i : Nat) t, s.tasks[i]? = some t →
        (t.stage.listable = true ↔ t.live = true ∧ t.session ≠ none) := by
      intro i t hi
      have ht := List.mem_of_getElem? hi
      obtain ⟨hcreated, huncounting⟩ := hs.2.2.2 t ht
      have htask : t.torn = 0 := List.sum_eq_zero_iff_forall_eq_nat.mp hzero _ (List.mem_map_of_mem ht)
      exact (hserving.undisturbed i t hi).listable_iff htask hcreated huncounting
    intro i
    constructor
    · intro hi
      obtain ⟨t, ht, hl⟩ := h.listed i hi
      exact ⟨t, ht, (hlistable i t ht).mp hl⟩
    · rintro ⟨t, ht, hl⟩
      exact hserving.listed i t ht ((hlistable i t ht).mpr hl)

/-- The first connection ends, and the second is accepted and has a callback under way. -/
def serveTwo : List ServerEvent :=
  connectAndSend ++ onTask 0 [.go, .go, .go, .receiveFailed, .go, .go, .go, .go] ++
    acceptConnection ++ onTask 1 [.poll, .go, .go, .go, .suspend]

theorem server_tracks_second :
    ∃ s, run (step {}) (withConfig {}) serveTwo = some s ∧ s.books.sessions = [1] ∧ s.TracksLive := by
  refine ⟨_, rfl, by decide, ?_⟩
  exact (server_tracks_live {} serveTwo _ rfl (by decide) (by decide)).mpr (by decide)

/-- The handler panics in `on_message`; the dead session stays in the list and in the count. -/
theorem server_keeps_dead_session :
    ∃ s ∈ run (step {}) (withConfig {}) (connectAndSend ++ [.task 0 .panic]),
      s.Settled ∧ s.liveTasks = 0 ∧ s.books.connectionCount = 1 ∧ s.books.sessions = [0] ∧ ¬ s.TracksLive := by
  have hstate : ∃ s ∈ run (step {}) (withConfig {}) (connectAndSend ++ [.task 0 .panic]),
      s.Settled ∧ s.liveTasks = 0 ∧ s.books.connectionCount = 1 ∧ s.books.sessions = [0] := by
    decide
  obtain ⟨s, hr, hs, hlive, hcount, hsessions⟩ := hstate
  refine ⟨s, hr, hs, hlive, hcount, hsessions, fun h => ?_⟩
  have hequal := h.count
  omega

/-! ## The callbacks of a session -/

/-- In every run whose callbacks do not panic, in which `stop` aborts no task between the first and the last
callback of its session and no `receive` panics, the callbacks are bracketed. -/
theorem session_callbacks (hpanic : ∀ e ∈ es, e.panics = false)
    (hC : Along (step config) (fun s e => s.abortsQuietly e = true ∧ e.overflows = false) (withConfig config) es) :
    Always (step config) Bracketed (withConfig config) es := by
  have hC' : Along (step config)
      (fun s e => (s.abortsQuietly e = true ∧ e.overflows = false) ∧ e.panics = false) (withConfig config) es :=
    fun pre e post s₁ he hr => ⟨hC pre e post s₁ he hr, hpanic e (by rw [he]; simp)⟩
  have hkeep : ∀ s e s', s.WellFormed config ∧ s.Metered ∧ s.Quiet →
      (s.abortsQuietly e = true ∧ e.overflows = false) ∧ e.panics = false → step config s e = some s' →
        s'.WellFormed config ∧ s'.Metered ∧ s'.Quiet := by
    rintro s e s' ⟨h, hm, hq⟩ ⟨⟨hC, hover⟩, hpanic⟩ hs
    have hstep := step_step hs
    exact ⟨h.step hs, hm.step hstep, hq.step hm hC hpanic hover hstep⟩
  refine always_of_preserves hkeep ?_ ⟨.withConfig config, .withConfig config, .withConfig config⟩ hC'
  rintro s ⟨h, hm, hq⟩
  have hended : ∀ t ∈ s.tasks, t.live = false → t.Complete := by
    intro t ht hl
    obtain ⟨i, hi⟩ := List.getElem?_of_mem ht
    exact (hq i t hi).ended (SessionTask.live_eq_false.mp hl)
  have hstopped : s.Stopped → ∀ t ∈ s.tasks, t.Complete := by
    intro hs t ht
    cases hl : t.live with
    | false => exact hended t ht hl
    | true =>
        obtain ⟨i, hi⟩ := List.getElem?_of_mem ht
        exact (hq i t hi).complete (hm.shaped i t hi) (h.tracked.aborted h.phased hs hi hl)
  constructor
  · intro t ht
    obtain ⟨i, hi⟩ := List.getElem?_of_mem ht
    exact exists_closedLog (hm.shaped i t hi).log_cases
  · exact hended
  · exact hstopped
  · intro hs
    rw [hm.gauge]
    apply List.sum_eq_zero
    intro n hn
    obtain ⟨t, ht, rfl⟩ := List.mem_map.mp hn
    exact (hstopped hs t ht).gauge

theorem session_callbacks_after_disconnect :
    (∃ s ∈ run (step {}) (withConfig {}) stopAfterDisconnect,
      s.Stopped ∧ s.tasks.map SessionTask.log = [[.connected, .message ⟨[1]⟩, .disconnected]]) ∧
    Always (step {}) Bracketed (withConfig {}) stopAfterDisconnect :=
  ⟨by decide, session_callbacks (by decide) (by decide)⟩

/-- The task that is aborted in `on_message` never calls `on_disconnected`. -/
theorem session_callbacks_cut_off :
    (∃ s ∈ run (step {}) (withConfig {}) stopDuringMessage,
      s.Stopped ∧ s.tasks.map SessionTask.log = [[.connected, .message ⟨[1]⟩]] ∧
        s.books.metrics.activeConnections = 1) ∧
    ¬ Always (step {}) Bracketed (withConfig {}) stopDuringMessage := by
  have hopen : ∃ s ∈ run (step {}) (withConfig {}) stopDuringMessage,
      s.Stopped ∧ s.tasks.map SessionTask.log = [[.connected, .message ⟨[1]⟩]] ∧
        s.books.metrics.activeConnections = 1 := by decide
  refine ⟨hopen, fun h => ?_⟩
  obtain ⟨s, hr, hs, _, hgauge⟩ := hopen
  have hzero := (h.last hr).gauge hs
  omega

/-- In every run, whatever panics, is aborted or stopped, the metrics are those of the sessions that there were, and
`active_connections` is at least zero and at most the connection count. -/
theorem metrics_meter_sessions (config : ServerConfig) (es : List ServerEvent) :
    Always (step config) Meters (withConfig config) es := by
  have hkeep : ∀ s e s', s.WellFormed config ∧ s.Measured → True → step config s e = some s' →
      s'.WellFormed config ∧ s'.Measured := by
    rintro s e s' ⟨h, hm⟩ _ hs
    exact ⟨h.step hs, hm.step (step_step hs)⟩
  exact always_of_preserves hkeep (fun s h => h.2.meters h.1.accounted) ⟨.withConfig config, .withConfig config⟩
    (along_of_forall fun _ _ => trivial)

/-! ## The cleanup task -/

/-- In every run of the cleanup task and of calls on the sessions, whenever a close is started the session has
completed nothing within the idle timeout, if and only if it has completed nothing within the idle timeout since
it was found idle. -/
theorem cleanup_closes_idle_iff (timeouts : SessionTimeouts) (start : Nat) (es : List (Nat × CleanupEvent)) :
    Along (Cleanup.step timeouts) (Cleanup.ClosesIdle timeouts) (Cleanup.fresh start) es ↔
      Along (Cleanup.step timeouts) (Cleanup.QuietSinceFound timeouts) (Cleanup.fresh start) es :=
  along_congr (I := Cleanup.FindsIdle timeouts) (fun _ _ _ h _ hs => h.step hs) (fun _ _ h => h.closesIdle_iff)
    (.fresh timeouts start)

/-- A `receive` on session `i` that waits for its first read. -/
def waitForRead (i now : Nat) : List (Nat × CleanupEvent) :=
  [(now, .session i (.spawn .receive)), (now, .session i (.act 0 (.receive (.check now)))),
    (now, .session i (.act 0 (.receive .lockBuffer))), (now, .session i (.act 0 (.receive (.lockRead 0 now))))]

/-- Both sessions are found idle while a `receive` waits on each. The close of the first waits for its `receive`
to time out; the second receives a message just before that. -/
def receivesBeforeClose : List (Nat × CleanupEvent) :=
  [(0, .accept []), (0, .accept [0, 0, 0, 1, 7]), (0, .cleanup)] ++ waitForRead 0 9 ++ waitForRead 1 9 ++
    List.replicate 5 (11, .cleanup) ++ List.replicate 4 (11, .session 0 (.act 1 (.close .next))) ++
    [(38, .session 1 (.act 0 (.receive (.read ⟨.ready 5, 0⟩ 38)))),
      (39, .session 0 (.act 0 (.receive (.read ⟨.timedOut, 30⟩ 39)))),
      (39, .session 0 (.act 1 (.close .next))), (39, .session 0 (.act 1 (.close .next))), (39, .cleanup),
      (39, .cleanup)]

theorem cleanup_closes_active_session :
    (∃ c, run (Cleanup.step ⟨30, 30, 10⟩) (Cleanup.fresh 0) receivesBeforeClose = some c ∧
      c.state.task = .awaiting 1 1 [] ∧ c.state.completed = [(1, 38)] ∧ c.now = 39) ∧
    ¬ Along (Cleanup.step ⟨30, 30, 10⟩) (Cleanup.ClosesIdle ⟨30, 30, 10⟩) (Cleanup.fresh 0) receivesBeforeClose :=
  ⟨⟨_, rfl, by decide, by decide, by decide⟩, by decide⟩

end NetworkSystem
