import NetworkSystem.Server.Lemmas.Live
import Mathlib.Data.List.Nodup

/-!
# A server that is not stopped

Only `stop` aborts tasks. As long as a server is not stopped, the session list names exactly the tasks that are
between their two list updates and those whose callback panicked there.
-/

namespace NetworkSystem

open Steps TaskPool

/-! ## Tasks that nobody aborts -/

structure SessionTask.Undisturbed (t : SessionTask) : Prop where
  unaborted : t.aborted = false
  uncancelled : t.stage ≠ .cancelled
  session : t.session = none ↔ t.stage = .spawned

variable {i : Nat} {b b' : Books} {t t' : SessionTask} {e : TaskEvent}

namespace SessionTask.Undisturbed

theorem fresh : SessionTask.Undisturbed {} := ⟨rfl, nofun, iff_of_true rfl rfl⟩

theorem move (h : t.Undisturbed) (hs : t.stage ≠ .spawned) (hs' : t'.stage ≠ .spawned)
    (hc' : t'.stage ≠ .cancelled) (ha : t'.aborted = t.aborted) (hse : t'.session = t.session) :
    t'.Undisturbed := by
  refine ⟨ha.trans h.unaborted, hc', ?_⟩
  rw [hse]
  exact iff_of_false (fun hn => hs (h.session.mp hn)) hs'

theorem close (h : t.Undisturbed) {part : ClosePart} (hc : t.close part = some t') : t'.Undisturbed := by
  unfold SessionTask.close at hc
  split at hc
  · cases hc
  · rename_i hsome
    split at hc
    · cases hc
    · cases hc
      refine ⟨h.unaborted, h.uncancelled, iff_of_false nofun fun hs => ?_⟩
      rw [h.session.mpr hs] at hsome
      cases hsome

end SessionTask.Undisturbed

theorem TaskStep.undisturbed (h : TaskStep i b t e b' t') (hu : t.Undisturbed) :
    t'.Undisturbed ∧ e ≠ .cancel := by
  cases h with
  | poll | suspend => exact ⟨⟨hu.unaborted, hu.uncancelled, hu.session⟩, nofun⟩
  | @quiet e stage hp hq he =>
      obtain ⟨hph, hbefore, hended⟩ := TaskStage.quietTo_phase hq
      refine ⟨hu.move ?_ ?_ ?_ rfl rfl, ?_⟩
      · exact fun hs => hbefore (congrArg TaskStage.phase hs)
      · exact fun hs => hbefore (hph.symm.trans (congrArg TaskStage.phase hs))
      · exact fun hs => hended (hph.symm.trans (congrArg TaskStage.phase hs))
      · rcases he with rfl | rfl <;> exact nofun
  | create => exact ⟨⟨hu.unaborted, nofun, iff_of_false nofun nofun⟩, nofun⟩
  | panic hp hc =>
      refine ⟨hu.move ?_ nofun nofun rfl rfl, nofun⟩
      intro hs
      rw [hs] at hc
      cases hc
  | cancel hl hp ha =>
      rw [hu.unaborted] at ha
      cases ha
  | _ hp hs => exact ⟨hu.move (by rw [hs]; exact nofun) nofun nofun rfl rfl, nofun⟩

/-- A task that has its session and was not torn down is in the list from one update to the other. -/
theorem SessionTask.Undisturbed.listable_iff (h : t.Undisturbed) (htorn : t.torn = 0)
    (hcreated : t.stage ≠ .created) (huncounting : t.stage ≠ .uncounting) :
    t.stage.listable = true ↔ t.live = true ∧ t.session ≠ none := by
  rw [ne_eq, h.session, live]
  cases hs : t.stage with
  | created => exact absurd hs hcreated
  | uncounting => exact absurd hs huncounting
  | cancelled => exact absurd hs h.uncancelled
  | panicked =>
      rw [torn, hs] at htorn
      cases htorn
  | _ => decide

/-! ## The session list -/

theorem TaskStep.sessions (h : TaskStep i b t e b' t') :
    (b'.sessions = b.sessions ∧ (t'.stage.listable = true → t.stage.listable = true ∨ e = .cancel)) ∨
    (t.stage = .created ∧ b'.sessions = b.sessions ++ [i]) ∨
    (t'.stage = .uncounting ∧ b'.sessions = b.sessions.filter (· != i)) := by
  cases h with
  | poll | suspend => exact Or.inl ⟨rfl, Or.inl⟩
  | quiet hp hq he =>
      refine Or.inl ⟨rfl, fun _ => Or.inl ?_⟩
      obtain ⟨-, hbefore, hended⟩ := TaskStage.quietTo_phase hq
      cases hs : t.stage with
      | uncounting => rw [hs] at hq; cases hq
      | spawned | created => rw [hs] at hbefore; exact absurd rfl hbefore
      | finished => rw [hs] at hended; exact absurd rfl hended
      | _ => rfl
  | create | uncount => exact Or.inl ⟨rfl, nofun⟩
  | list hp hs => exact Or.inr (Or.inl ⟨hs, rfl⟩)
  | delist => exact Or.inr (Or.inr ⟨rfl, rfl⟩)
  | connect hp hs | message hp hs | disconnect hp hs =>
      exact Or.inl ⟨rfl, fun _ => Or.inl (by rw [hs]; rfl)⟩
  | panic hp hc =>
      refine Or.inl ⟨rfl, fun _ => Or.inl ?_⟩
      cases hs : t.stage with
      | onConnected | onMessage | onDisconnected => rfl
      | _ => rw [hs] at hc; cases hc
  | overflow hp hs => exact Or.inl ⟨rfl, fun _ => Or.inl (by rw [hs]; rfl)⟩
  | cancel => exact Or.inl ⟨rfl, fun _ => Or.inr rfl⟩

/-- No `stop` is under way, and every session that may be in the list is there, once. -/
structure TcpServer.Serving (s : TcpServer) : Prop where
  control : s.control = .idle
  undisturbed : ∀ (i : Nat) t, s.tasks[i]? = some t → t.Undisturbed
  listed : ∀ (i : Nat) t, s.tasks[i]? = some t → t.stage.listable = true → i ∈ s.books.sessions
  once : s.books.sessions.Nodup

variable {config : ServerConfig} {s s' : TcpServer} {ev : ServerEvent}

namespace TcpServer.Serving

theorem withConfig (config : ServerConfig) : (TcpServer.withConfig config).Serving where
  control := rfl
  undisturbed := by
    intro i t ht
    cases ht
  listed := by
    intro i t ht
    cases ht
  once := List.nodup_nil

theorem set (h : s.Serving) (hi : s.tasks[i]? = some t) (ht : t'.Undisturbed) (hst : t'.stage = t.stage) :
    TcpServer.Serving { s with tasks := s.tasks.set i t' } where
  control := h.control
  undisturbed := forall_getElem?_set h.undisturbed ht
  listed := forall_getElem?_set h.listed fun hl => h.listed i t hi (hst ▸ hl)
  once := h.once

theorem task (h : s.Serving) (hl : s.Listed) (hi : s.tasks[i]? = some t)
    (ht : TaskStep i s.books t e b t') :
    TcpServer.Serving { s with books := b, tasks := s.tasks.set i t' } := by
  obtain ⟨hu, hcancel⟩ := ht.undisturbed (h.undisturbed i t hi)
  have hundisturbed := forall_getElem?_set (i := i) h.undisturbed hu
  rcases ht.sessions with ⟨hb, hstay⟩ | ⟨hs, hb⟩ | ⟨hs, hb⟩
  · refine ⟨h.control, hundisturbed, ?_, hb ▸ h.once⟩
    rw [hb]
    refine forall_getElem?_set h.listed fun hlist => ?_
    exact h.listed i t hi ((hstay hlist).resolve_right hcancel)
  · have hnew : i ∉ s.books.sessions := by
      intro hmem
      obtain ⟨u, hu', hlist⟩ := hl i hmem
      rw [hi] at hu'
      cases hu'
      rw [hs] at hlist
      cases hlist
    refine ⟨h.control, hundisturbed, ?_, ?_⟩
    · rw [hb]
      refine forall_getElem?_set ?_ fun _ => List.mem_append_right _ (List.mem_singleton_self i)
      exact fun j u hj hlist => List.mem_append_left _ (h.listed j u hj hlist)
    · show b.sessions.Nodup
      rw [hb, ← List.concat_eq_append]
      exact List.Nodup.concat hnew h.once
  · refine ⟨h.control, hundisturbed, ?_, ?_⟩
    · intro j u hj hlist
      show j ∈ b.sessions
      rw [hb]
      rcases getElem?_set_cases hj with ⟨_, rfl⟩ | ⟨hij, hj⟩
      · rw [hs] at hlist
        cases hlist
      · exact List.mem_filter.mpr ⟨h.listed j u hj hlist, by simpa using Ne.symm hij⟩
    · show b.sessions.Nodup
      rw [hb]
      exact h.once.filter _

/-- Nothing but `stop` on a running server takes a server out of service. -/
theorem step (h : s.Serving) (hl : s.Listed) (hC : ev = .stop → s.running = false)
    (hs : ServerStep s ev s') : s'.Serving := by
  have hidle := h.control
  cases hs with
  | task hi ht => exact h.task hl hi ht
  | close hi ht =>
      exact h.set hi ((h.undisturbed _ _ hi).close ht) (SessionTask.close_eq ht).1
  | stop hc hr =>
      rw [hC rfl] at hr
      cases hr
  | stopIdle => exact h
  | signal hc | joinServer hc | joinCleanup hc | snapshot hc | closeNext hc | closed hc | clear hc | take hc
  | abort hc | stopped hc =>
      rw [hidle] at hc
      cases hc
  | spawn ha =>
      exact ⟨h.control, forall_getElem?_snoc h.undisturbed .fresh, forall_getElem?_snoc h.listed nofun, h.once⟩
  | _ => exact ⟨h.control, h.undisturbed, h.listed, h.once⟩

theorem tearsDown (h : s.Serving) (hs : ServerStep s ev s') :
    ev.tearsDown = false ↔ ev.panics = false ∧ ev.overflows = false := by
  cases hs with
  | @task i t t' b e hi ht =>
      have hcancel := (ht.undisturbed (h.undisturbed i t hi)).2
      cases e with
      | cancel => exact absurd rfl hcancel
      | _ => simp [ServerEvent.tearsDown, ServerEvent.panics, ServerEvent.overflows]
  | _ => exact iff_of_true rfl ⟨rfl, rfl⟩

end TcpServer.Serving

/-- A `stop` finds the server not running, and returns at once. -/
def TcpServer.NotStopped (s : TcpServer) (ev : ServerEvent) : Prop := ev = .stop → s.running = false

instance (s : TcpServer) (ev : ServerEvent) : Decidable (s.NotStopped ev) :=
  inferInstanceAs (Decidable (_ → _))

/-- In a run without a stop, tasks are torn down by panics only. -/
theorem TcpServer.Serving.run {es : List ServerEvent}
    (hr : run (TcpServer.step config) (TcpServer.withConfig config) es = some s)
    (hC : Along (TcpServer.step config) TcpServer.NotStopped (TcpServer.withConfig config) es) :
    s.Serving ∧ ∀ e ∈ es, e.tearsDown = false ↔ e.panics = false ∧ e.overflows = false := by
  have hkeep : ∀ s e s', s.WellFormed config ∧ s.Serving → s.NotStopped e →
      TcpServer.step config s e = some s' → s'.WellFormed config ∧ s'.Serving := by
    rintro s e s' ⟨h, hserving⟩ hC hs
    exact ⟨h.step hs, hserving.step h.listed hC (TcpServer.step_step hs)⟩
  have hfresh := And.intro (TcpServer.WellFormed.withConfig config) (TcpServer.Serving.withConfig config)
  refine ⟨(run_preserves hkeep hfresh hC hr).2, forall_of_along ?_ hr⟩
  refine along_of_preserves hkeep ?_ hfresh hC
  rintro s e ⟨-, hserving⟩ - s₁ hs
  exact hserving.tearsDown (TcpServer.step_step hs)

/-! ## The connection count -/

theorem SessionTask.counted_eq (t : SessionTask) : t.counted = t.live.toNat + t.torn := by
  cases hl : t.live with
  | true => rw [counted_live hl, torn_live hl]; rfl
  | false => rw [counted_ended hl, Bool.toNat_false, Nat.zero_add]

/-- In a settled state the connection count is the number of live tasks and of those that were torn down. -/
theorem TcpServer.WellFormed.count_settled (h : s.WellFormed config) (hs : s.Settled) :
    s.books.connectionCount = s.liveTasks + (s.tasks.map SessionTask.torn).sum := by
  obtain ⟨hcounted, hready, hfailed, -⟩ := hs
  have haccept : s.accept.counts = 0 := by
    cases ha : s.accept with
    | counted => exact absurd ha hcounted
    | ready => exact absurd ha hready
    | setupFailed => exact absurd ha hfailed
    | _ => rfl
  have hsplit : (s.tasks.map SessionTask.counted).sum =
      (s.tasks.map fun t => t.live.toNat + t.torn).sum :=
    congrArg List.sum (List.map_congr_left fun t _ => t.counted_eq)
  rw [h.accounted.count, haccept, hsplit, List.sum_map_add, TcpServer.liveTasks_eq, Nat.zero_add]

end NetworkSystem
