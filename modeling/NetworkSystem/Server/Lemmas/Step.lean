import NetworkSystem.Server.Lemmas.Task
import NetworkSystem.Server.TcpServer

/-!
# The steps of the server

`ServerStep` has one rule for each step of the session tasks, the accept loop, `start` and `stop`.
-/

namespace NetworkSystem

open AcceptStage ControlStage

inductive ServerStep (s : TcpServer) : ServerEvent → TcpServer → Prop
  | task {i : Nat} {t t' : SessionTask} {b : Books} {e : TaskEvent} (hi : s.tasks[i]? = some t)
      (h : TaskStep i s.books t e b t') :
      ServerStep s (.task i e) { s with books := b, tasks := s.tasks.set i t' }
  | close {i : Nat} {t t' : SessionTask} {part : ClosePart} (hi : s.tasks[i]? = some t)
      (h : t.close part = some t') : ServerStep s (.close i part) { s with tasks := s.tasks.set i t' }
  | hold {i : Nat} (hi : i ∈ s.books.sessions ∨ i ∈ s.held) : ServerStep s (.hold i) { s with held := i :: s.held }
  | release {i : Nat} (hi : i ∈ s.held) : ServerStep s (.release i) { s with held := s.held.erase i }
  -- `start` and `stop`
  | start (hc : s.control = .idle) (hr : s.running = false) :
      ServerStep s .start
        { s with running := true, accept := .waiting, cleanup := .running, shutdownSent := false }
  | stop (hc : s.control = .idle) (hr : s.running = true) :
      ServerStep s .stop { s with running := false, control := .signalling }
  | stopIdle (hc : s.control = .idle) (hr : s.running = false) : ServerStep s .stop s
  | signal (hc : s.control = .signalling) :
      ServerStep s .control { s with shutdownSent := true, control := .joiningServer }
  | joinServer (hc : s.control = .joiningServer) (ha : s.accept = .exited ∨ s.accept = .absent) :
      ServerStep s .control { s with control := .joiningCleanup }
  | joinCleanup (hc : s.control = .joiningCleanup) (hcl : s.cleanup ≠ .running) :
      ServerStep s .control { s with control := .snapshotting }
  | snapshot (hc : s.control = .snapshotting) :
      ServerStep s .control { s with control := .closing s.books.sessions .active }
  | closeNext {i : Nat} {todo : List Nat} {part : ClosePart} {t t' : SessionTask}
      (hc : s.control = .closing (i :: todo) part) (hi : s.tasks[i]? = some t)
      (h : t.close part = some t') :
      ServerStep s .control { s with tasks := s.tasks.set i t', control := TcpServer.afterClose i todo part }
  | closed {part : ClosePart} (hc : s.control = .closing [] part) :
      ServerStep s .control { s with control := .clearing }
  | clear (hc : s.control = .clearing) :
      ServerStep s .control { s with books := { s.books with sessions := [] }, control := .taking }
  | take (hc : s.control = .taking) :
      ServerStep s .control { s with sessionTasks := [], control := .aborting s.sessionTasks }
  | abort {i : Nat} {todo : List Nat} {t : SessionTask} (hc : s.control = .aborting (i :: todo))
      (hi : s.tasks[i]? = some t) :
      ServerStep s .control { s with tasks := s.tasks.set i t.abort, control := .aborting todo }
  | stopped (hc : s.control = .aborting []) :
      ServerStep s .control { s with running := false, control := .idle }
  -- the accept loop
  | connection (ha : s.accept = .waiting) : ServerStep s .connection { s with accept := .accepted }
  | reject (ha : s.accept = .accepted) (hp : s.books.permits = 0) :
      ServerStep s .accept { s with accept := .waiting }
  | acquire (ha : s.accept = .accepted) (hp : s.books.permits ≠ 0) :
      ServerStep s .accept
        { s with books := { s.books with permits := s.books.permits - 1 }, accept := .permitted }
  | count (ha : s.accept = .permitted) :
      ServerStep s .accept
        { s with
          books := { s.books with connectionCount := s.books.connectionCount + 1 }, accept := .counted }
  | setup (ha : s.accept = .counted) : ServerStep s (.setup true) { s with accept := .ready }
  | setupFail (ha : s.accept = .counted) : ServerStep s (.setup false) { s with accept := .setupFailed }
  | uncount (ha : s.accept = .setupFailed) :
      ServerStep s .accept
        { s with
          books := { s.books with connectionCount := s.books.connectionCount - 1 }, accept := .unwinding }
  | unwind (ha : s.accept = .unwinding) :
      ServerStep s .accept
        { s with books := { s.books with permits := s.books.permits + 1 }, accept := .waiting }
  | spawn (ha : s.accept = .ready) :
      ServerStep s .accept { s with tasks := s.tasks ++ [{}], accept := .spawned s.tasks.length }
  | handOver {i : Nat} (ha : s.accept = .spawned i) :
      ServerStep s .accept
        { s with
          books := { s.books with permits := s.books.permits + (!permitCaptured).toNat }
          accept := .handed i }
  | track {i : Nat} (ha : s.accept = .handed i) :
      ServerStep s .accept { s with sessionTasks := s.sessionTasks ++ [i], accept := .tracked }
  | prune (ha : s.accept = .tracked) :
      ServerStep s .accept
        { s with sessionTasks := s.sessionTasks.filter s.taskLive, accept := .waiting }
  | shutdown (ha : s.accept = .waiting) (hs : s.shutdownSent = true) :
      ServerStep s .shutdownSignal { s with accept := .exiting }
  | exit (ha : s.accept = .exiting) : ServerStep s .accept { s with running := false, accept := .exited }
  | cleanupExit (hr : s.running = false) : ServerStep s .cleanupExit { s with cleanup := .exited }

variable {config : ServerConfig} {s s' : TcpServer}

theorem TcpServer.acceptStep_step (h : s.acceptStep = some s') : ServerStep s .accept s' := by
  unfold TcpServer.acceptStep at h
  cases ha : s.accept with
  | accepted =>
      simp only [ha] at h
      split at h
      · cases h; exact .reject ha ‹_›
      · cases h; exact .acquire ha ‹_›
  | permitted => simp only [ha] at h; cases h; exact .count ha
  | setupFailed => simp only [ha] at h; cases h; exact .uncount ha
  | unwinding => simp only [ha] at h; cases h; exact .unwind ha
  | ready => simp only [ha] at h; cases h; exact .spawn ha
  | spawned i => simp only [ha] at h; cases h; exact .handOver ha
  | handed i => simp only [ha] at h; cases h; exact .track ha
  | tracked => simp only [ha] at h; cases h; exact .prune ha
  | exiting => simp only [ha] at h; cases h; exact .exit ha
  | _ => simp only [ha] at h; cases h

theorem TcpServer.closeNext_step {i : Nat} {todo : List Nat} {part : ClosePart}
    (hc : s.control = .closing (i :: todo) part) (h : s.closeNext i todo part = some s') :
    ServerStep s .control s' := by
  obtain ⟨t, hi, h⟩ := Option.bind_eq_some_iff.mp h
  obtain ⟨t', ht, rfl⟩ := Option.map_eq_some_iff.mp h
  exact .closeNext hc hi ht

theorem TcpServer.controlStep_step (h : s.controlStep = some s') : ServerStep s .control s' := by
  unfold TcpServer.controlStep at h
  cases hc : s.control with
  | idle => simp only [hc] at h; cases h
  | signalling => simp only [hc] at h; cases h; exact .signal hc
  | joiningServer =>
      simp only [hc, Option.ite_none_right_eq_some] at h
      obtain ⟨ha, h⟩ := h
      cases h
      exact .joinServer hc ha
  | joiningCleanup =>
      simp only [hc, Option.ite_none_right_eq_some] at h
      obtain ⟨hcl, h⟩ := h
      cases h
      exact .joinCleanup hc hcl
  | snapshotting => simp only [hc] at h; cases h; exact .snapshot hc
  | closing todo part =>
      cases todo with
      | nil => simp only [hc] at h; cases h; exact .closed hc
      | cons i todo => simp only [hc] at h; exact TcpServer.closeNext_step hc h
  | clearing => simp only [hc] at h; cases h; exact .clear hc
  | taking => simp only [hc] at h; cases h; exact .take hc
  | aborting todo =>
      cases todo with
      | nil => simp only [hc] at h; cases h; exact .stopped hc
      | cons i todo =>
          simp only [hc] at h
          obtain ⟨t, hi, rfl⟩ := Option.map_eq_some_iff.mp h
          exact .abort hc hi

/-- Every event of the server is one of the steps. -/
theorem TcpServer.step_step {e : ServerEvent} (h : TcpServer.step config s e = some s') :
    ServerStep s e s' := by
  cases e with
  | start =>
      simp only [TcpServer.step, TcpServer.start, Option.ite_none_right_eq_some] at h
      obtain ⟨⟨hc, hr⟩, h⟩ := h
      cases h
      exact .start hc hr
  | stop =>
      simp only [TcpServer.step, TcpServer.stop, Option.ite_none_right_eq_some] at h
      obtain ⟨hc, h⟩ := h
      cases hr : s.running with
      | true => rw [hr] at h; cases h; exact .stop hc hr
      | false => rw [hr] at h; cases h; exact .stopIdle hc hr
  | control => exact TcpServer.controlStep_step h
  | connection =>
      simp only [TcpServer.step, Option.ite_none_right_eq_some] at h
      obtain ⟨ha, h⟩ := h
      cases h
      exact .connection ha
  | accept => exact TcpServer.acceptStep_step h
  | setup ok =>
      simp only [TcpServer.step, Option.ite_none_right_eq_some] at h
      obtain ⟨ha, h⟩ := h
      cases ok with
      | true => cases h; exact .setup ha
      | false =>
          simp only [Bool.false_eq_true, if_false, Option.ite_none_right_eq_some] at h
          obtain ⟨_, h⟩ := h
          cases h
          exact .setupFail ha
  | shutdownSignal =>
      simp only [TcpServer.step, Option.ite_none_right_eq_some] at h
      obtain ⟨⟨ha, hs⟩, h⟩ := h
      cases h
      exact .shutdown ha hs
  | cleanupExit =>
      simp only [TcpServer.step, Option.ite_none_right_eq_some] at h
      obtain ⟨⟨_, hr⟩, h⟩ := h
      cases h
      exact .cleanupExit hr
  | hold i =>
      simp only [TcpServer.step, Option.ite_none_right_eq_some] at h
      obtain ⟨hi, h⟩ := h
      cases h
      exact .hold hi
  | release i =>
      simp only [TcpServer.step, Option.ite_none_right_eq_some] at h
      obtain ⟨hi, h⟩ := h
      cases h
      exact .release hi
  | close i part =>
      obtain ⟨t, hi, h⟩ := Option.bind_eq_some_iff.mp h
      obtain ⟨t', ht, rfl⟩ := Option.map_eq_some_iff.mp h
      exact .close hi ht
  | task i e =>
      obtain ⟨t, hi, h⟩ := Option.bind_eq_some_iff.mp h
      obtain ⟨⟨b, t'⟩, ht, rfl⟩ := Option.map_eq_some_iff.mp h
      exact .task hi (SessionTask.step_step ht)

/-! ## What `close` and `abort` leave alone -/

variable {t t' : SessionTask} {part : ClosePart}

theorem SessionTask.close_eq (h : t.close part = some t') :
    t'.stage = t.stage ∧ t'.polled = t.polled ∧ t'.aborted = t.aborted ∧ t'.log = t.log := by
  unfold SessionTask.close at h
  split at h
  · cases h
  · split at h
    · cases h
    · cases h; exact ⟨rfl, rfl, rfl, rfl⟩

theorem SessionTask.abort_eq (t : SessionTask) :
    t.abort.stage = t.stage ∧ t.abort.polled = t.polled ∧ t.abort.log = t.log := by
  unfold SessionTask.abort
  split <;> exact ⟨rfl, rfl, rfl⟩

end NetworkSystem
