import NetworkSystem.Server.Lemmas.Callbacks
import NetworkSystem.Server.Lemmas.Serving

/-!
# Sessions that are closed

A part of a session is closed when somebody has asked for it: a `stop` that has found the session in the list, or
somebody outside. Only the `stop` that is under way may have parts of its snapshot still to close.
-/

namespace NetworkSystem

open Steps TaskPool

/-! ## Parts -/

def SessionIo.part (s : SessionIo) : ClosePart → Bool
  | .active => s.active
  | .writeHalf => s.writeHalf
  | .readHalf => s.readHalf

theorem SessionIo.close_part (s : SessionIo) (part part' : ClosePart) :
    (s.close part).part part' = (s.part part' && part' != part) := by
  cases part <;> cases part' <;> simp [SessionIo.close, SessionIo.part]

theorem SessionIo.closed_iff {s : SessionIo} : s = ⟨false, false, false⟩ ↔ ∀ part, s.part part = false := by
  constructor
  · rintro rfl part
    cases part <;> rfl
  · intro h
    obtain ⟨active, writeHalf, readHalf⟩ := s
    obtain rfl : active = false := h .active
    obtain rfl : writeHalf = false := h .writeHalf
    obtain rfl : readHalf = false := h .readHalf
    rfl

def SessionTask.partClosed (t : SessionTask) (part : ClosePart) : Bool := t.session.any fun io => !io.part part

def ClosePart.rank : ClosePart → Nat
  | .active => 0
  | .writeHalf => 1
  | .readHalf => 2

/-- `stop` has still to close the part of session `i`. -/
def ControlStage.closes (i : Nat) (part : ClosePart) : ControlStage → Prop
  | .closing (j :: todo) next => i ∈ todo ∨ (i = j ∧ next.rank ≤ part.rank)
  | _ => False

namespace TcpServer

def partClosed (s : TcpServer) (i : Nat) (part : ClosePart) : Bool := (s.tasks[i]?).any fun t => t.partClosed part

/-- The event is the statement of `stop` that closes the part of session `i`. -/
def stopCloses (s : TcpServer) (e : ServerEvent) (i : Nat) (part : ClosePart) : Prop :=
  e = .control ∧ ∃ todo, s.control = .closing (i :: todo) part

/-- The event is the snapshot of a `stop`, and session `i` is in it. -/
def snapshots (s : TcpServer) (e : ServerEvent) (i : Nat) : Prop :=
  e = .control ∧ s.control = .snapshotting ∧ i ∈ s.books.sessions

end TcpServer

variable {config : ServerConfig} {s s' : TcpServer} {e : ServerEvent} {i : Nat} {part : ClosePart}

theorem TcpServer.stopCloses_iff {j : Nat} {todo : List Nat} {next : ClosePart}
    (hc : s.control = .closing (j :: todo) next) : s.stopCloses .control i part ↔ i = j ∧ part = next := by
  constructor
  · rintro ⟨-, todo', hc'⟩
    rw [hc] at hc'
    cases hc'
    exact ⟨rfl, rfl⟩
  · rintro ⟨rfl, rfl⟩
    exact ⟨rfl, todo, hc⟩

theorem TcpServer.not_stopCloses (hc : ∀ todo, s.control ≠ .closing (i :: todo) part) : ¬ s.stopCloses e i part :=
  fun ⟨_, todo, h⟩ => hc todo h

theorem TcpServer.not_snapshots (hc : s.control ≠ .snapshotting) : ¬ s.snapshots e i := fun ⟨_, h, _⟩ => hc h

/-! ## What a step closes -/

theorem SessionTask.close_partClosed {t t' : SessionTask} {part' : ClosePart} (h : t.close part = some t') :
    t'.partClosed part' = true ↔ t.partClosed part' = true ∨ part' = part := by
  unfold SessionTask.close at h
  split at h
  · cases h
  · rename_i io hio
    split at h
    · cases h
    · cases h
      simp only [partClosed, hio, Option.any_some, SessionIo.close_part, Bool.not_and, Bool.or_eq_true,
        Bool.not_eq_true', bne_eq_false_iff_eq]

/-- A task touches its session only when it creates it. -/
theorem TaskStep.session {b b' : Books} {t t' : SessionTask} {e : TaskEvent} (h : TaskStep i b t e b' t') :
    t'.session = t.session ∨ (t.stage = .spawned ∧ t'.session = some {}) := by
  cases h with
  | create hp hs => exact Or.inr ⟨hs, rfl⟩
  | _ => exact Or.inl rfl

theorem TaskStep.partClosed {b b' : Books} {t t' : SessionTask} {e : TaskEvent} (h : TaskStep i b t e b' t')
    (hs : t.Shaped) : t'.partClosed part = t.partClosed part := by
  unfold SessionTask.partClosed
  rcases h.session with hsame | ⟨hspawned, hnew⟩
  · rw [hsame]
  · rw [hnew, hs.1 hspawned]
    cases part <;> rfl

namespace TcpServer

theorem partClosed_set {t t' : SessionTask} {j : Nat} (hi : s.tasks[i]? = some t)
    (ht : s'.tasks = s.tasks.set i t') :
    s'.partClosed j part = if i = j then t'.partClosed part else s.partClosed j part := by
  unfold partClosed
  rw [ht]
  split
  · rename_i heq
    rw [← heq, List.getElem?_set_self (List.getElem?_eq_some_iff.mp hi).1, Option.any_some]
  · rename_i hne
    rw [List.getElem?_set_ne hne]

theorem partClosed_keep {t t' : SessionTask} {j : Nat} (hi : s.tasks[i]? = some t)
    (ht : s'.tasks = s.tasks.set i t') (hkeep : t'.partClosed part = t.partClosed part) :
    s'.partClosed j part = s.partClosed j part := by
  rw [partClosed_set hi ht]
  split
  · rename_i heq
    rw [← heq, hkeep, partClosed, hi, Option.any_some]
  · rfl

theorem partClosed_close {t t' : SessionTask} {j : Nat} {part' : ClosePart} (hi : s.tasks[i]? = some t)
    (ht : s'.tasks = s.tasks.set i t') (hc : t.close part' = some t') :
    s'.partClosed j part = true ↔ s.partClosed j part = true ∨ (j = i ∧ part = part') := by
  rw [partClosed_set hi ht]
  split
  · rename_i heq
    subst heq
    rw [SessionTask.close_partClosed hc, partClosed, hi, Option.any_some]
    simp
  · rename_i hne
    simp [Ne.symm hne]

/-- A part is closed by somebody outside, by `stop`, or not at all. -/
theorem partClosed_step (hm : s.Metered) (hs : ServerStep s e s') :
    s'.partClosed i part = true ↔ s.partClosed i part = true ∨ e = .close i part ∨ s.stopCloses e i part := by
  -- a step that closes nothing
  have hnone : s'.partClosed i part = s.partClosed i part → e ≠ .close i part → ¬ s.stopCloses e i part →
      (s'.partClosed i part = true ↔ s.partClosed i part = true ∨ e = .close i part ∨ s.stopCloses e i part) := by
    intro hsame hclose hstop
    rw [hsame, or_iff_left (not_or.mpr ⟨hclose, hstop⟩)]
  cases hs with
  | @task j t t' b e hj ht =>
      exact hnone (partClosed_keep hj rfl (ht.partClosed (hm.shaped j t hj))) nofun nofun
  | @close j t t' p hj ht =>
      have hno : ¬ s.stopCloses (.close j p) i part := nofun
      rw [partClosed_close hj rfl ht, or_iff_left hno, ServerEvent.close.injEq, @eq_comm _ i j, @eq_comm _ part p]
  | @closeNext j todo p t t' hc hj ht =>
      have hno : ServerEvent.control ≠ .close i part := nofun
      rw [partClosed_close hj rfl ht, or_iff_right hno, stopCloses_iff hc]
  | @abort j todo t hc hj =>
      refine hnone (partClosed_keep hj rfl ?_) nofun (not_stopCloses (by rw [hc]; exact nofun))
      rw [SessionTask.partClosed, t.abort_session]
      rfl
  | spawn ha =>
      refine hnone ?_ nofun nofun
      unfold partClosed
      by_cases hlt : i < s.tasks.length
      · rw [List.getElem?_append_left hlt]
      · rw [List.getElem?_append_right (Nat.not_lt.mp hlt), List.getElem?_eq_none (Nat.not_lt.mp hlt)]
        cases i - s.tasks.length <;> rfl
  | closed hc | signal hc | joinServer hc | joinCleanup hc | snapshot hc | clear hc | take hc | stopped hc =>
      exact hnone rfl nofun (not_stopCloses (by rw [hc]; exact nofun))
  | _ => exact hnone rfl nofun nofun

/-! ## What `stop` has still to close -/

theorem closes_all (i : Nat) (part : ClosePart) (todo : List Nat) :
    ControlStage.closes i part (.closing todo .active) ↔ i ∈ todo := by
  cases todo with
  | nil => simp [ControlStage.closes]
  | cons j todo => simp [ControlStage.closes, ClosePart.rank, or_comm]

/-- `stop` closes a part, and has the others still to close. -/
theorem closes_afterClose (i j : Nat) (part next : ClosePart) (todo : List Nat) :
    ControlStage.closes i part (.closing (j :: todo) next) ↔
      ControlStage.closes i part (afterClose j todo next) ∨ (i = j ∧ part = next) := by
  cases next with
  | readHalf =>
      rw [afterClose, closes_all]
      cases part <;> simp [ControlStage.closes, ClosePart.rank]
  | _ =>
      cases part <;> simp [afterClose, ControlStage.closes, ClosePart.rank]

theorem closes_step (hs : ServerStep s e s') :
    (s.control.closes i part ∨ s.snapshots e i) ↔ (s'.control.closes i part ∨ s.stopCloses e i part) := by
  -- a step that neither snapshots nor closes
  have hnone : s'.control.closes i part = s.control.closes i part → ¬ s.snapshots e i → ¬ s.stopCloses e i part →
      ((s.control.closes i part ∨ s.snapshots e i) ↔ (s'.control.closes i part ∨ s.stopCloses e i part)) := by
    intro hsame hsnapshot hstop
    rw [hsame, or_iff_left hsnapshot, or_iff_left hstop]
  cases hs with
  | snapshot hc =>
      have hno : ¬ s.stopCloses .control i part := not_stopCloses (by rw [hc]; exact nofun)
      rw [or_iff_left hno, closes_all, hc]
      simp [ControlStage.closes, snapshots, hc]
  | @closeNext j todo next t t' hc hj ht =>
      have hno : ¬ s.snapshots .control i := not_snapshots (by rw [hc]; exact nofun)
      rw [or_iff_left hno, hc, closes_afterClose, stopCloses_iff hc]
  | closed hc | signal hc | joinServer hc | joinCleanup hc | clear hc | take hc | stopped hc | abort hc =>
      refine hnone ?_ (not_snapshots (by rw [hc]; exact nofun)) (not_stopCloses (by rw [hc]; exact nofun))
      rw [hc]
      rfl
  | stop hc =>
      refine hnone ?_ nofun nofun
      rw [hc]
      rfl
  | _ => exact hnone rfl nofun nofun

/-! ## Requests -/

theorem asked_append (requests : List CloseRequest) (s : TcpServer) (e : ServerEvent) (i : Nat) (part : ClosePart) :
    Asked (requests ++ (s.closeRequest e).toList) i part ↔
      Asked requests i part ∨ e = .close i part ∨ s.snapshots e i := by
  have happend : Asked (requests ++ (s.closeRequest e).toList) i part ↔
      Asked requests i part ∨ Asked (s.closeRequest e).toList i part := by
    simp only [Asked, List.mem_append, or_and_right, exists_or]
    exact or_or_or_comm
  rw [happend]
  refine or_congr_right ?_
  unfold Asked closeRequest snapshots
  cases e with
  | close j p => simp [@eq_comm _ i, @eq_comm _ part]
  | control =>
      by_cases hc : s.control = .snapshotting <;> simp [hc]
  | _ => simp

/-- A part is asked to be closed exactly when it is closed or `stop` has it still to close. -/
def ClosesAsked (requests : List CloseRequest) (s : TcpServer) : Prop :=
  ∀ i part, Asked requests i part ↔ s.partClosed i part = true ∨ s.control.closes i part

theorem ClosesAsked.withConfig (config : ServerConfig) : ClosesAsked [] (withConfig config) := by
  intro i part
  refine iff_of_false ?_ ?_
  · rintro (h | ⟨_, h, _⟩) <;> cases h
  · rintro (h | h) <;> cases h

theorem ClosesAsked.step {requests : List CloseRequest} (h : ClosesAsked requests s) (hm : s.Metered)
    (hs : ServerStep s e s') : ClosesAsked (requests ++ (s.closeRequest e).toList) s' := by
  intro i part
  rw [asked_append, h i part, partClosed_step hm hs]
  have hstop : s.control.closes i part ∨ s.snapshots e i ↔ s'.control.closes i part ∨ s.stopCloses e i part :=
    closes_step hs
  tauto

/-- Once `stop` has returned, what is closed is what was asked to be closed in the run. -/
theorem asked_iff {es : List ServerEvent} (hr : run (step config) (withConfig config) es = some s)
    (hs : s.Stopped) (i : Nat) (part : ClosePart) :
    Asked (outputs (step config) closeRequest (withConfig config) es) i part ↔ s.partClosed i part = true := by
  have hkeep : s.Metered ∧ ClosesAsked ([] ++ outputs (step config) closeRequest (withConfig config) es) s :=
    outputs_invariant (I := fun requests s => s.Metered ∧ ClosesAsked requests s)
      (fun _ _ _ _ h hs => ⟨h.1.step (step_step hs), h.2.step h.1 (step_step hs)⟩)
      ⟨.withConfig config, .withConfig config⟩ hr
  have hno : ¬ s.control.closes i part := by
    rw [hs.1]
    exact nofun
  rw [List.nil_append] at hkeep
  rw [hkeep.2 i part, or_iff_left hno]

/-! ## Sessions that somebody has -/

def HasSession (s : TcpServer) (i : Nat) : Prop := ∃ t, s.tasks[i]? = some t ∧ t.session ≠ none

/-- The list and the `Arc`s outside are of sessions that were created. -/
structure NamesSessions (s : TcpServer) : Prop where
  created : ∀ (i : Nat) t, s.tasks[i]? = some t → t.stage = .created → t.session ≠ none
  listed : ∀ i ∈ s.books.sessions, s.HasSession i
  held : ∀ i ∈ s.held, s.HasSession i

end TcpServer

theorem SessionTask.close_hasSession {t t' : SessionTask} (h : t.close part = some t') : t'.session ≠ none := by
  unfold SessionTask.close at h
  split at h
  · cases h
  · split at h
    · cases h
    · cases h
      exact nofun

theorem TaskStep.hasSession {b b' : Books} {t t' : SessionTask} {e : TaskEvent} (h : TaskStep i b t e b' t')
    (ht : t.session ≠ none) : t'.session ≠ none := by
  rcases h.session with hsame | ⟨_, hnew⟩
  · rwa [hsame]
  · rw [hnew]
    exact nofun

/-- Only the creation of its session brings a task to `created`. -/
theorem TaskStep.created {b b' : Books} {t t' : SessionTask} {e : TaskEvent} (h : TaskStep i b t e b' t')
    (hs : t'.stage = .created) : (t.stage = .created ∧ t'.session = t.session) ∨ t'.session = some {} := by
  cases h with
  | poll | suspend => exact Or.inl ⟨hs, rfl⟩
  | create => exact Or.inr rfl
  | quiet hp hq he =>
      obtain ⟨hph, hbefore, _⟩ := TaskStage.quietTo_phase hq
      exact absurd (hph.symm.trans (congrArg TaskStage.phase hs)) hbefore
  | _ => cases hs

namespace TcpServer

theorem HasSession.set {t t' : SessionTask} {j : Nat} (h : s.HasSession i) (hj : s.tasks[j]? = some t)
    (ht : s'.tasks = s.tasks.set j t') (hkeep : t.session ≠ none → t'.session ≠ none) : s'.HasSession i := by
  obtain ⟨u, hu, hsession⟩ := h
  unfold HasSession
  rw [ht]
  by_cases hij : j = i
  · subst hij
    rw [hj] at hu
    cases hu
    exact ⟨t', List.getElem?_set_self (List.getElem?_eq_some_iff.mp hj).1, hkeep hsession⟩
  · exact ⟨u, by rw [List.getElem?_set_ne hij, hu], hsession⟩

/-- A session that was created stays with its task. -/
theorem HasSession.step (h : s.HasSession i) (hs : ServerStep s e s') : s'.HasSession i := by
  cases hs with
  | task hj ht => exact h.set hj rfl ht.hasSession
  | close hj ht | closeNext _ hj ht => exact h.set hj rfl fun _ => SessionTask.close_hasSession ht
  | @abort j todo t hc hj => exact h.set hj rfl fun hsession => by rwa [t.abort_session]
  | spawn ha =>
      obtain ⟨t, ht, hsession⟩ := h
      exact ⟨t, by rw [List.getElem?_append_left (List.getElem?_eq_some_iff.mp ht).1, ht], hsession⟩
  | _ => exact h

namespace NamesSessions

theorem withConfig (config : ServerConfig) : (withConfig config).NamesSessions where
  created := by
    intro i t ht
    cases ht
  listed := by
    intro i hi
    cases hi
  held := by
    intro i hi
    cases hi

/-- A step that adds nothing to the list and clones no `Arc`. -/
theorem keep (h : s.NamesSessions) (hs : ServerStep s e s')
    (hcreated : ∀ (i : Nat) t, s'.tasks[i]? = some t → t.stage = .created → t.session ≠ none)
    (hlisted : ∀ i ∈ s'.books.sessions, i ∈ s.books.sessions) (hheld : ∀ i ∈ s'.held, i ∈ s.held) :
    s'.NamesSessions :=
  ⟨hcreated, fun i hi => (h.listed i (hlisted i hi)).step hs, fun i hi => (h.held i (hheld i hi)).step hs⟩

theorem step (h : s.NamesSessions) (hs : ServerStep s e s') : s'.NamesSessions := by
  have hall := hs
  cases hs with
  | @task i t t' b e hi ht =>
      have hcreated : t'.stage = .created → t'.session ≠ none := by
        intro hst
        rcases ht.created hst with ⟨hst, hsame⟩ | hnew
        · rw [hsame]
          exact h.created i t hi hst
        · rw [hnew]
          exact nofun
      refine ⟨forall_getElem?_set h.created hcreated, ?_, fun j hj => (h.held j hj).step hall⟩
      intro j hj
      rcases ht.sessions with ⟨hb, _⟩ | ⟨hst, hb⟩ | ⟨_, hb⟩
      · exact (h.listed j (hb ▸ hj)).step hall
      · rcases List.mem_append.mp (hb ▸ hj) with hj | hj
        · exact (h.listed j hj).step hall
        · rw [List.mem_singleton.mp hj]
          exact HasSession.step ⟨t, hi, h.created i t hi hst⟩ hall
      · exact (h.listed j (List.mem_filter.mp (hb ▸ hj)).1).step hall
  | hold hi =>
      refine ⟨h.created, h.listed, fun j hj => ?_⟩
      rcases List.mem_cons.mp hj with rfl | hj
      · exact hi.elim (h.listed j) (h.held j)
      · exact h.held j hj
  | release hi => exact h.keep hall h.created (fun _ => id) fun _ => List.mem_of_mem_erase
  | close hi ht | closeNext _ hi ht =>
      refine h.keep hall (forall_getElem?_set h.created fun _ => ?_) (fun _ => id) fun _ => id
      exact SessionTask.close_hasSession ht
  | @abort i todo t hc hi =>
      refine h.keep hall (forall_getElem?_set h.created fun hst => ?_) (fun _ => id) fun _ => id
      rw [t.abort_session]
      exact h.created i t hi (t.abort_eq.1.symm.trans hst)
  | spawn ha => exact h.keep hall (forall_getElem?_snoc h.created nofun) (fun _ => id) fun _ => id
  | clear hc => exact h.keep hall h.created nofun fun _ => id
  | _ => exact h.keep hall h.created (fun _ => id) fun _ => id

theorem run {es : List ServerEvent} (hr : run (TcpServer.step config) (TcpServer.withConfig config) es = some s) :
    s.NamesSessions :=
  run_invariant (fun _ _ _ h hs => h.step (step_step hs)) (.withConfig config) hr

end NamesSessions

/-! ## A server that has stopped -/

theorem partClosed_iff {t : SessionTask} {io : SessionIo} (ht : s.tasks[i]? = some t) (hio : t.session = some io) :
    s.partClosed i part = true ↔ io.part part = false := by
  rw [partClosed, ht, Option.any_some, SessionTask.partClosed, hio, Option.any_some, Bool.not_eq_true']

/-- Once `stop` has returned, no task is live and the list is empty, every session is closed exactly when each one
that somebody outside has was asked to be closed. -/
theorem closed_iff {es : List ServerEvent} (hr : Steps.run (step config) (withConfig config) es = some s)
    (hs : s.Stopped) (hended : ∀ t ∈ s.tasks, t.live = false) (hsessions : s.books.sessions = []) :
    (∀ (i : Nat) t, s.tasks[i]? = some t → t.session ≠ none → s.SessionClosed i t) ↔ ClosesHeld config es s := by
  constructor
  · intro hclosed i hi part
    obtain ⟨t, ht, hsession⟩ := (NamesSessions.run hr).held i hi
    rw [asked_iff hr hs]
    rcases hclosed i t ht hsession with hio | hno
    · rw [partClosed_iff ht hio]
      exact SessionIo.closed_iff.mp rfl part
    · exact absurd (Or.inr (Or.inr (Or.inr hi))) hno
  · intro hasked i t ht hsession
    by_cases hheld : i ∈ s.held
    · obtain ⟨io, hio⟩ := Option.ne_none_iff_exists'.mp hsession
      refine Or.inl (hio.trans (congrArg some (SessionIo.closed_iff.mpr fun part => ?_)))
      rw [← partClosed_iff ht hio, ← asked_iff hr hs]
      exact hasked i hheld part
    · refine Or.inr ?_
      rintro (hl | hi | hi | hi)
      · rw [hended t (List.mem_of_getElem? ht)] at hl
        cases hl
      · rw [hsessions] at hi
        cases hi
      · rw [hs.1] at hi
        cases hi
      · exact hheld hi

end TcpServer

end NetworkSystem
