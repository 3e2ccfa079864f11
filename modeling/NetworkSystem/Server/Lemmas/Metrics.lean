import NetworkSystem.Server.Lemmas.Callbacks
import NetworkSystem.Server.Lemmas.Live
import Mathlib.Algebra.Group.Prod

/-!
# The metrics

A callback and its metrics are one step, so that in every state the metrics are the sums over the logs of all
session tasks, whatever ended the tasks.
-/

namespace NetworkSystem

open TaskPool

/-! ## What callbacks add -/

/-- The four metrics that the callbacks change. -/
abbrev Totals : Type := Nat × Int × Nat × Nat

def Metrics.totals (m : Metrics) : Totals :=
  (m.connectionsTotal, m.activeConnections, m.messagesReceivedTotal, m.bytesReceivedTotal)

def Callback.adds : Callback → Totals
  | .connected => (1, 1, 0, 0)
  | .message m => (0, 0, 1, m.size)
  | .disconnected => (0, -1, 0, 0)

theorem Metrics.record_totals (m : Metrics) (c : Callback) : (m.record c).totals = m.totals + c.adds := by
  cases c with
  | connected => rfl
  | message msg => simp [Metrics.record, Metrics.totals, Callback.adds]
  | disconnected => rfl

def logTotals (log : List Callback) : Totals := (log.map Callback.adds).sum

theorem logTotals_snoc (log : List Callback) (c : Callback) : logTotals (log ++ [c]) = logTotals log + c.adds := by
  rw [logTotals, List.map_append, List.sum_append, List.map_singleton, List.sum_singleton]
  rfl

variable {i : Nat} {b b' : Books} {t t' : SessionTask} {e : TaskEvent}

theorem TaskStep.totals (h : TaskStep i b t e b' t') :
    b'.metrics.totals + logTotals t.log = b.metrics.totals + logTotals t'.log := by
  have hcall : ∀ c stage, (t.callback b c stage).1.metrics.totals + logTotals t.log =
      b.metrics.totals + logTotals (t.callback b c stage).2.log := by
    intro c stage
    show (b.metrics.record c).totals + logTotals t.log = b.metrics.totals + logTotals (t.log ++ [c])
    rw [Metrics.record_totals, logTotals_snoc, add_assoc, add_comm c.adds]
  cases h with
  | connect => exact hcall _ _
  | message => exact hcall _ _
  | disconnect => exact hcall _ _
  | _ => rfl

/-- A task that has finished has made its last callback. -/
def SessionTask.Ends (t : SessionTask) : Prop := t.stage = .finished → ClosedLog t.log

theorem TaskStep.ends (h : TaskStep i b t e b' t') (hs : t.Shaped) : t'.Ends := by
  intro hfin
  cases h with
  | uncount hp hst => exact hs.after (by rw [hst]; rfl)
  | poll hl hp ha =>
      rw [SessionTask.live, hfin] at hl
      cases hl
  | suspend hp hw =>
      rw [hfin] at hw
      cases hw
  | quiet hp hq he =>
      obtain ⟨hph, _, hne⟩ := TaskStage.quietTo_phase hq
      exact absurd (hph.symm.trans (congrArg TaskStage.phase hfin)) hne
  | _ => cases hfin

namespace TcpServer

variable {s s' : TcpServer}

/-- The metrics are what all callbacks have added, and the tasks that have finished have made their last one. -/
structure Measured (s : TcpServer) : Prop where
  metered : s.Metered
  totals : s.books.metrics.totals = (s.tasks.map fun t => logTotals t.log).sum
  ends : ∀ (i : Nat) t, s.tasks[i]? = some t → t.Ends

theorem Measured.withConfig (config : ServerConfig) : (withConfig config).Measured where
  metered := .withConfig config
  totals := rfl
  ends := by intro i t hi; cases hi

theorem Measured.set (h : s.Measured) (hmetered : s'.Metered) {i : Nat} {t t' : SessionTask}
    (hi : s.tasks[i]? = some t) (ht : s'.tasks = s.tasks.set i t') (hb : s'.books.metrics = s.books.metrics)
    (hst : t'.stage = t.stage) (hlog : t'.log = t.log) : s'.Measured where
  metered := hmetered
  totals := by
    rw [ht, hb, sum_map_set_of_eq (fun t => logTotals t.log) hi (congrArg logTotals hlog)]
    exact h.totals
  ends := by
    rw [ht]
    refine forall_getElem?_set h.ends ?_
    rw [SessionTask.Ends, hst, hlog]
    exact h.ends i t hi

theorem Measured.step {e : ServerEvent} (h : s.Measured) (hs : ServerStep s e s') : s'.Measured := by
  have hmetered := h.metered.step hs
  cases hs with
  | @task i t t' b e hi ht =>
      refine ⟨hmetered, ?_, forall_getElem?_set h.ends (ht.ends (h.metered.shaped i t hi))⟩
      have hsum := sum_map_set (fun t : SessionTask => logTotals t.log) t' hi
      have hstep := ht.totals
      apply add_right_cancel (b := logTotals t.log)
      calc b.metrics.totals + logTotals t.log
          = s.books.metrics.totals + logTotals t'.log := hstep
        _ = ((s.tasks.set i t').map fun t => logTotals t.log).sum + logTotals t.log := by rw [h.totals, hsum]
  | close hi ht =>
      obtain ⟨hst, _, _, hlog⟩ := SessionTask.close_eq ht
      exact h.set hmetered hi rfl rfl hst hlog
  | closeNext hc hi ht =>
      obtain ⟨hst, _, _, hlog⟩ := SessionTask.close_eq ht
      exact h.set hmetered hi rfl rfl hst hlog
  | @abort i todo t hc hi =>
      obtain ⟨hst, _, hlog⟩ := t.abort_eq
      exact h.set hmetered hi rfl rfl hst hlog
  | spawn ha =>
      refine ⟨hmetered, ?_, forall_getElem?_snoc h.ends (fun hfin => by cases hfin)⟩
      show s.books.metrics.totals = ((s.tasks ++ [({} : SessionTask)]).map fun t => logTotals t.log).sum
      rw [List.map_append, List.sum_append, ← h.totals]
      exact (add_zero _).symm
  | _ => exact ⟨hmetered, h.totals, h.ends⟩

end TcpServer

/-! ## Sessions and their messages -/

def messagesOf (log : List Callback) : List Message :=
  log.filterMap fun
    | .message m => some m
    | _ => none

def sessionTotals (log : List Callback) : Totals :=
  ((decide (.connected ∈ log)).toNat, ((openSession log).toNat : Int), (messagesOf log).length,
    ((messagesOf log).map Message.size).sum)

theorem logTotals_messages (ms : List Message) :
    logTotals (ms.map .message) = (0, 0, ms.length, (ms.map Message.size).sum) := by
  induction ms with
  | nil => rfl
  | cons m ms ih =>
      have hcons : logTotals ((m :: ms).map .message) = Callback.adds (.message m) + logTotals (ms.map .message) := rfl
      rw [hcons, ih, Callback.adds]
      simp [Nat.add_comm]

theorem messagesOf_messages (ms : List Message) : messagesOf (ms.map .message) = ms := by
  rw [messagesOf, List.filterMap_map]
  exact List.filterMap_some

theorem logTotals_of_shape {log : List Callback} (h : log = [] ∨ OpenLog log ∨ ClosedLog log) :
    logTotals log = sessionTotals log := by
  rcases h with rfl | hopen | hclosed
  · rfl
  · have hactive := hopen.openSession
    obtain ⟨ms, rfl⟩ := hopen
    have hmessages : messagesOf (.connected :: ms.map .message) = ms := messagesOf_messages ms
    have hsum : logTotals (.connected :: ms.map .message) =
        Callback.adds .connected + logTotals (ms.map .message) := rfl
    rw [sessionTotals, hactive, hmessages, hsum, logTotals_messages]
    simp [Callback.adds]
  · have hactive := hclosed.openSession
    obtain ⟨ms, rfl⟩ := hclosed
    have hmessages : messagesOf (.connected :: (ms.map .message ++ [.disconnected])) = ms := by
      rw [messagesOf, List.filterMap_cons_none rfl, List.filterMap_append]
      exact (List.append_nil _).trans (messagesOf_messages ms)
    have hsum : logTotals (.connected :: (ms.map .message ++ [.disconnected])) =
        Callback.adds .connected + (logTotals (ms.map .message) + Callback.adds .disconnected) := by
      rw [← logTotals_snoc]
      rfl
    rw [sessionTotals, hactive, hmessages, hsum, logTotals_messages]
    simp [Callback.adds]

theorem sum_sessionTotals (tasks : List SessionTask) :
    (tasks.map fun t => sessionTotals t.log).sum =
      (tasks.countP fun t => decide (.connected ∈ t.log), ((tasks.countP fun t => openSession t.log : Nat) : Int),
        (tasks.map fun t => (messagesOf t.log).length).sum,
        (tasks.map fun t => ((messagesOf t.log).map Message.size).sum).sum) := by
  induction tasks with
  | nil => rfl
  | cons t tasks ih =>
      rw [List.map_cons, List.sum_cons, ih, List.countP_cons, List.countP_cons, sessionTotals]
      simp only [List.map_cons, List.sum_cons, Prod.mk_add_mk, Prod.mk.injEq, and_true]
      constructor
      · by_cases hc : Callback.connected ∈ t.log <;> simp [hc, Nat.add_comm]
      · cases openSession t.log <;> simp [Int.add_comm]

/-! ## Open sessions and connections -/

theorem SessionTask.open_le_counted {t : SessionTask} (h : t.Ends) : (openSession t.log).toNat ≤ t.counted := by
  unfold SessionTask.counted
  split
  · rename_i hfin
    rw [(h hfin).openSession]
    exact Nat.le_refl 0
  · exact Bool.toNat_le _

namespace TcpServer

variable {config : ServerConfig} {s : TcpServer}

/-- The metrics are those of the sessions: how many have connected, how many of these have not disconnected, and
what they have received. No session is counted as active that is not counted as a connection. -/
structure Meters (s : TcpServer) : Prop where
  connections : s.books.metrics.connectionsTotal = s.tasks.countP fun t => decide (.connected ∈ t.log)
  active : s.books.metrics.activeConnections = (s.tasks.countP fun t => openSession t.log : Nat)
  messages : s.books.metrics.messagesReceivedTotal = (s.tasks.map fun t => (messagesOf t.log).length).sum
  bytes : s.books.metrics.bytesReceivedTotal =
    (s.tasks.map fun t => ((messagesOf t.log).map Message.size).sum).sum
  bounded : s.books.metrics.activeConnections ≤ s.books.connectionCount

theorem Measured.meters (h : s.Measured) (ha : s.Accounted config) : s.Meters := by
  have hshape : ∀ t ∈ s.tasks, logTotals t.log = sessionTotals t.log := by
    intro t ht
    obtain ⟨i, hi⟩ := List.getElem?_of_mem ht
    exact logTotals_of_shape (h.metered.shaped i t hi).log_cases
  have htotals := h.totals
  rw [List.map_congr_left hshape, sum_sessionTotals, Metrics.totals] at htotals
  obtain ⟨hconnections, hrest⟩ := Prod.mk.inj htotals
  obtain ⟨hactive, hrest⟩ := Prod.mk.inj hrest
  obtain ⟨hmessages, hbytes⟩ := Prod.mk.inj hrest
  refine ⟨hconnections, hactive, hmessages, hbytes, ?_⟩
  -- every open session is one that its task has not uncounted
  have hopen : s.tasks.countP (fun t => openSession t.log) ≤ (s.tasks.map SessionTask.counted).sum := by
    have hcount := Pool.total_eq_countP (fun t : SessionTask => openSession t.log) ⟨(), s.tasks⟩
    rw [← hcount, Pool.total]
    refine List.sum_le_sum fun t ht => ?_
    obtain ⟨i, hi⟩ := List.getElem?_of_mem ht
    exact SessionTask.open_le_counted (h.ends i t hi)
  have hcount := ha.count
  rw [hactive]
  omega

end TcpServer

end NetworkSystem
