import NetworkSystem.Server.Lemmas.Phases

/-!
# The books of the server

The permits, the connection count and the session list, as sums over the accept loop and the session
tasks.
-/

namespace NetworkSystem

open TaskPool

/-! ## Permits and connections -/

/-- The permits in the hands of the accept loop. While `handle_connection` runs it owns the permit,
unless the task that it spawned does. -/
def AcceptStage.permits : AcceptStage → Nat
  | .permitted | .counted | .ready | .setupFailed | .unwinding => 1
  | .spawned _ => (!permitCaptured).toNat
  | _ => 0

/-- The connection that the accept loop has counted and not handed to a task. -/
def AcceptStage.counts : AcceptStage → Nat
  | .counted | .ready | .setupFailed => 1
  | _ => 0

/-- Every permit is in the semaphore, with the accept loop or with a live task that owns one, and the
connection count is what the accept loop and the tasks add to it. -/
structure TcpServer.Accounted (config : ServerConfig) (s : TcpServer) : Prop where
  permits : s.books.permits + s.accept.permits + (s.tasks.map SessionTask.permits).sum =
    config.maxConnections
  count : s.books.connectionCount = s.accept.counts + (s.tasks.map SessionTask.counted).sum

variable {config : ServerConfig} {s s' : TcpServer} {e : ServerEvent}

theorem AcceptStage.permits_closed {a : AcceptStage} (h : a.closed = true) :
    a.permits = 0 ∧ a.counts = 0 := by
  cases a with
  | absent | exited => exact ⟨rfl, rfl⟩
  | _ => cases h

theorem TcpServer.Accounted.withConfig (config : ServerConfig) :
    (TcpServer.withConfig config).Accounted config where
  permits := rfl
  count := rfl

theorem TcpServer.Accounted.same (h : s.Accounted config) (hb : s'.books.permits = s.books.permits)
    (hn : s'.books.connectionCount = s.books.connectionCount)
    (ha : s'.accept.permits = s.accept.permits ∧ s'.accept.counts = s.accept.counts)
    (ht : (s'.tasks.map SessionTask.permits).sum = (s.tasks.map SessionTask.permits).sum ∧
      (s'.tasks.map SessionTask.counted).sum = (s.tasks.map SessionTask.counted).sum) :
    s'.Accounted config where
  permits := by rw [hb, ha.1, ht.1]; exact h.permits
  count := by rw [hn, ha.2, ht.2]; exact h.count

theorem sums_set {l : List SessionTask} {i : Nat} {t t' : SessionTask} (hi : l[i]? = some t)
    (hs : t'.stage = t.stage) :
    ((l.set i t').map SessionTask.permits).sum = (l.map SessionTask.permits).sum ∧
      ((l.set i t').map SessionTask.counted).sum = (l.map SessionTask.counted).sum :=
  ⟨sum_map_set_of_eq _ hi (SessionTask.permits_congr hs),
    sum_map_set_of_eq _ hi (SessionTask.counted_congr hs)⟩

theorem TcpServer.Accounted.task (h : s.Accounted config) {i : Nat} {t t' : SessionTask} {b : Books}
    {e : TaskEvent} (hi : s.tasks[i]? = some t) (ht : TaskStep i s.books t e b t') :
    TcpServer.Accounted config { s with books := b, tasks := s.tasks.set i t' } := by
  have hpsum := sum_map_set SessionTask.permits t' hi
  have hcsum := sum_map_set SessionTask.counted t' hi
  have hmem : t.counted ≤ (s.tasks.map SessionTask.counted).sum :=
    List.le_sum_of_mem (List.mem_map_of_mem (List.mem_of_getElem? hi))
  have hle : t.counted ≤ s.books.connectionCount := by rw [h.count]; omega
  constructor
  · have hstep := ht.permits
    have hold := h.permits
    show b.permits + s.accept.permits + ((s.tasks.set i t').map SessionTask.permits).sum = _
    omega
  · have hstep := ht.counted hle
    have hold := h.count
    show b.connectionCount = s.accept.counts + ((s.tasks.set i t').map SessionTask.counted).sum
    omega

theorem TcpServer.Accounted.step (h : s.Accounted config) (hp : s.Phased) (hs : ServerStep s e s') :
    s'.Accounted config := by
  have hpermits := h.permits
  have hcount := h.count
  cases hs with
  | task hi ht => exact h.task hi ht
  | close hi ht => exact h.same rfl rfl ⟨rfl, rfl⟩ (sums_set hi (SessionTask.close_eq ht).1)
  | closeNext hc hi ht => exact h.same rfl rfl ⟨rfl, rfl⟩ (sums_set hi (SessionTask.close_eq ht).1)
  | abort hc hi => exact h.same rfl rfl ⟨rfl, rfl⟩ (sums_set hi (SessionTask.abort_eq _).1)
  | start hc hr =>
      obtain ⟨h₁, h₂⟩ := AcceptStage.permits_closed (hp.of_stopped ⟨hc, hr⟩).1
      exact h.same rfl rfl ⟨h₁.symm, h₂.symm⟩ ⟨rfl, rfl⟩
  | acquire ha hne =>
      simp only [ha, AcceptStage.permits, AcceptStage.counts] at hpermits hcount
      constructor
      · show s.books.permits - 1 + 1 + (s.tasks.map SessionTask.permits).sum = _
        omega
      · exact hcount
  | count ha =>
      simp only [ha, AcceptStage.permits, AcceptStage.counts] at hpermits hcount
      constructor
      · exact hpermits
      · show s.books.connectionCount + 1 = 1 + (s.tasks.map SessionTask.counted).sum
        omega
  | uncount ha =>
      simp only [ha, AcceptStage.permits, AcceptStage.counts] at hpermits hcount
      constructor
      · exact hpermits
      · show s.books.connectionCount - 1 = 0 + (s.tasks.map SessionTask.counted).sum
        omega
  | unwind ha =>
      simp only [ha, AcceptStage.permits, AcceptStage.counts] at hpermits hcount
      constructor
      · show s.books.permits + 1 + 0 + (s.tasks.map SessionTask.permits).sum = _
        omega
      · exact hcount
  | spawn ha =>
      simp only [ha, AcceptStage.permits, AcceptStage.counts] at hpermits hcount
      -- the permit that was in the hand of the accept loop is with `handle_connection` or with the task
      have hsplit : (!permitCaptured).toNat + permitCaptured.toNat = 1 := by
        cases permitCaptured <;> rfl
      have hnew : SessionTask.permits {} = permitCaptured.toNat := rfl
      constructor
      · show s.books.permits + (!permitCaptured).toNat +
          ((s.tasks ++ [({} : SessionTask)]).map SessionTask.permits).sum = _
        rw [List.map_append, List.sum_append, List.map_singleton, List.sum_singleton, hnew]
        omega
      · show s.books.connectionCount = 0 + ((s.tasks ++ [({} : SessionTask)]).map SessionTask.counted).sum
        rw [List.map_append, List.sum_append, List.map_singleton, List.sum_singleton,
          SessionTask.counted_live rfl]
        omega
  | handOver ha =>
      simp only [ha, AcceptStage.permits, AcceptStage.counts] at hpermits hcount
      constructor
      · show s.books.permits + (!permitCaptured).toNat + 0 + (s.tasks.map SessionTask.permits).sum = _
        omega
      · exact hcount
  | connection ha | reject ha | setup ha | setupFail ha | track ha | prune ha | shutdown ha | exit ha =>
      exact h.same rfl rfl (by rw [ha]; exact ⟨rfl, rfl⟩) ⟨rfl, rfl⟩
  | _ => exact ⟨hpermits, hcount⟩

/-! ## The session list -/

def TaskStage.listable : TaskStage → Bool
  | .spawned | .created | .uncounting | .finished => false
  | _ => true

/-- The list names only sessions of tasks that are between their two list updates, or that ended without
the second. -/
def TcpServer.Listed (s : TcpServer) : Prop :=
  ∀ i ∈ s.books.sessions, ∃ t, s.tasks[i]? = some t ∧ t.stage.listable = true

theorem TaskStage.quietTo_listable {a b : TaskStage} (h : a.quietTo b = true) : b.listable = true := by
  unfold TaskStage.quietTo at h
  split at h
  all_goals first | rfl | cases h

theorem TaskStep.listed {i : Nat} {b b' : Books} {t t' : SessionTask} {e : TaskEvent}
    (h : TaskStep i b t e b' t') : ∀ j ∈ b'.sessions, (j ∈ b.sessions ∧ j ≠ i) ∨
      (j = i ∧ (j ∈ b.sessions → t.stage.listable = true → t'.stage.listable = true) ∧
        (j ∉ b.sessions → t'.stage.listable = true)) := by
  intro j hj
  by_cases hji : j = i
  · refine Or.inr ⟨hji, ?_⟩
    cases h with
    | list hp hs => exact ⟨fun _ _ => rfl, fun _ => rfl⟩
    | delist hp hs =>
        obtain ⟨_, hne⟩ := List.mem_filter.mp hj
        exact absurd hji (by simpa using hne)
    | poll hl hp ha => exact ⟨fun _ hl => hl, fun hn => absurd hj hn⟩
    | suspend hp hw => exact ⟨fun _ hl => hl, fun hn => absurd hj hn⟩
    | quiet hp hq he => exact ⟨fun _ _ => TaskStage.quietTo_listable hq, fun hn => absurd hj hn⟩
    | create hp hs => exact ⟨fun _ hl => (by rw [hs] at hl; cases hl), fun hn => absurd hj hn⟩
    | uncount hp hs => exact ⟨fun _ hl => (by rw [hs] at hl; cases hl), fun hn => absurd hj hn⟩
    | _ => exact ⟨fun _ _ => rfl, fun hn => absurd hj hn⟩
  · refine Or.inl ⟨?_, hji⟩
    cases h with
    | list hp hs =>
        rcases List.mem_append.mp hj with hj | hj
        · exact hj
        · exact absurd (List.mem_singleton.mp hj) hji
    | delist hp hs => exact (List.mem_filter.mp hj).1
    | _ => exact hj

theorem TcpServer.Listed.set (h : s.Listed) {i : Nat} {t t' : SessionTask} (hi : s.tasks[i]? = some t)
    (hb : s'.books.sessions = s.books.sessions) (ht : s'.tasks = s.tasks.set i t')
    (hst : t'.stage = t.stage) : s'.Listed := by
  intro j hj
  rw [hb] at hj
  obtain ⟨u, hu, hl⟩ := h j hj
  rw [ht]
  by_cases hij : i = j
  · subst hij
    rw [hi] at hu
    cases hu
    exact ⟨t', List.getElem?_set_self (List.getElem?_eq_some_iff.mp hi).1, hst ▸ hl⟩
  · exact ⟨u, (List.getElem?_set_ne hij).trans hu, hl⟩

theorem TcpServer.Listed.step (h : s.Listed) (hs : ServerStep s e s') : s'.Listed := by
  cases hs with
  | @task i t t' b e hi ht =>
      intro j hj
      rcases ht.listed j hj with ⟨hj, hji⟩ | ⟨rfl, hstay, hnew⟩
      · obtain ⟨u, hu, hl⟩ := h j hj
        exact ⟨u, (List.getElem?_set_ne (Ne.symm hji)).trans hu, hl⟩
      · refine ⟨t', List.getElem?_set_self (List.getElem?_eq_some_iff.mp hi).1, ?_⟩
        by_cases hj : j ∈ s.books.sessions
        · obtain ⟨u, hu, hl⟩ := h j hj
          rw [hi] at hu
          cases hu
          exact hstay hj hl
        · exact hnew hj
  | close hi ht => exact h.set hi rfl rfl (SessionTask.close_eq ht).1
  | closeNext hc hi ht => exact h.set hi rfl rfl (SessionTask.close_eq ht).1
  | abort hc hi => exact h.set hi rfl rfl (SessionTask.abort_eq _).1
  | clear hc => intro j hj; cases hj
  | spawn ha =>
      intro j hj
      obtain ⟨u, hu, hl⟩ := h j hj
      exact ⟨u, by rw [List.getElem?_append_left (List.getElem?_eq_some_iff.mp hu).1]; exact hu, hl⟩
  | _ => exact h

end NetworkSystem
