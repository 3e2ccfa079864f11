import NetworkSystem.Handler.HandledServer
import NetworkSystem.Handler.Lemmas.Delegation
import NetworkSystem.Server.Lemmas.Callbacks

/-!
# The server and its handler

The callbacks that the handler has received are those in the logs of the session tasks, session by session. What
holds of the server alone and of the handler alone in all their runs then holds of both together.
-/

namespace NetworkSystem

open TaskPool Steps

variable {W : Type} {config : ServerConfig} {process : MessageProcessor W}

/-- A list in which one element is replaced by another that `f` does not tell from it. -/
theorem map_set_eq {α β : Type} (f : α → β) {l : List α} {i : Nat} {a a' : α} (hi : l[i]? = some a)
    (ha : f a' = f a) : (l.set i a').map f = l.map f := by
  obtain ⟨hlt, rfl⟩ := List.getElem?_eq_some_iff.mp hi
  rw [List.map_set, ha, ← List.map_set, List.set_getElem_self]

/-! ## What the handler has received -/

namespace ThreadPoolHandler

variable {h h' : ThreadPoolHandler W}

def received (h : ThreadPoolHandler W) : List (List Callback) := h.sessions.map DelegatedSession.received

theorem onSession_received {i : Nat} {f : DelegatedSession → Option DelegatedSession}
    (hs : h.onSession i f = some h') (hf : ∀ s s', f s = some s' → s'.received = s.received) :
    h'.received = h.received := by
  obtain ⟨s, s', hi, hfs, rfl⟩ := onSession_eq_some.mp hs
  exact map_set_eq _ hi (hf s s' hfs)

theorem call_received {i : Nat} {c : Callback} (hs : h.step process (.call i c) = some h') :
    ∃ log, h.received[i]? = some log ∧ h'.received = h.received.set i (log ++ [c]) := by
  obtain ⟨s, s', hi, hc, rfl⟩ := onSession_eq_some.mp hs
  refine ⟨s.received, by rw [received, List.getElem?_map, hi]; rfl, ?_⟩
  have hreceived : s'.received = s.received ++ [c] := by
    unfold DelegatedSession.call at hc
    split at hc
    · cases c <;> cases hc <;> rfl
    · cases hc
  rw [received, received, List.map_set, hreceived]

/-- No other step of the handler is a callback. -/
theorem own_received {e : DelegationEvent} (hs : h.step process e = some h') (he : e.isOwn = true) :
    h'.received = h.received := by
  cases e with
  | accept | call | tearDown => cases he
  | submit i refused =>
      obtain ⟨s, hi, hs⟩ := Option.bind_eq_some_iff.mp hs
      split at hs
      · cases hs; exact map_set_eq _ hi rfl
      · cases hs; exact map_set_eq _ hi rfl
      · cases hs
  | work k =>
      obtain ⟨job, hk, hs⟩ := Option.bind_eq_some_iff.mp hs
      cases job with
      | queued m =>
          dsimp only at hs
          split at hs
          · cases hs; rfl
          · cases hs; rfl
      | _ => cases hs
  | cancel k =>
      obtain ⟨job, hk, hs⟩ := Option.bind_eq_some_iff.mp hs
      cases job with
      | queued m => cases hs; rfl
      | _ => cases hs
  | resume i =>
      refine onSession_received hs fun s s' hf => ?_
      cases hst : s.stage with
      | waiting k =>
          simp only [hst, Option.bind_eq_some_iff] at hf
          obtain ⟨job, _, hf⟩ := hf
          unfold DelegatedSession.resume at hf
          split at hf <;> cases hf <;> rfl
      | _ => simp only [hst, reduceCtorEq] at hf
  | finish i =>
      refine onSession_received hs fun s s' hf => ?_
      obtain ⟨_, hf⟩ := Option.ite_none_right_eq_some.mp hf
      cases hf
      rfl

theorem tearDown_received {i : Nat} (hs : h.step process (.tearDown i) = some h') :
    h'.received = h.received :=
  onSession_received hs fun s s' hf => by cases hf; rfl

end ThreadPoolHandler

/-! ## What the tasks have called -/

/-- A step of a task makes at most one callback, and none when it goes on from one. -/
theorem TaskStep.log_cases {i : Nat} {b b' : Books} {t t' : SessionTask} {e : TaskEvent}
    (h : TaskStep i b t e b' t') :
    t'.log = t.log ∨ ∃ c, t'.log = t.log ++ [c] ∧ ¬ (e = .go ∧ t.stage.inCallback = true) := by
  cases h with
  | connect hp hs =>
      refine Or.inr ⟨.connected, rfl, ?_⟩
      rintro ⟨_, hin⟩
      rw [hs] at hin
      cases hin
  | message hp hs => exact Or.inr ⟨_, rfl, fun h => by cases h.1⟩
  | disconnect hp hs =>
      refine Or.inr ⟨.disconnected, rfl, ?_⟩
      rintro ⟨_, hin⟩
      rw [hs] at hin
      cases hin
  | _ => exact Or.inl rfl

namespace HandledServer

variable {x x' : HandledServer W}

/-- The handler has received what the tasks have called. -/
def Coupled (x : HandledServer W) : Prop := x.handler.received = x.server.tasks.map SessionTask.log

theorem step_server {e : ServerEvent} (hs : step config process x (.server e) = some x') :
    x.server.step config e = some x'.server ∧ x.follow process x'.server e = some x'.handler := by
  obtain ⟨server, hserver, hs⟩ := Option.bind_eq_some_iff.mp hs
  obtain ⟨handler, hhandler, rfl⟩ := Option.map_eq_some_iff.mp hs
  exact ⟨hserver, hhandler⟩

theorem step_handler {e : DelegationEvent} (hs : step config process x (.handler e) = some x') :
    e.isOwn = true ∧ x.handler.step process e = some x'.handler ∧ x'.server = x.server := by
  obtain ⟨hown, hs⟩ := Option.ite_none_right_eq_some.mp hs
  obtain ⟨handler, hhandler, rfl⟩ := Option.map_eq_some_iff.mp hs
  exact ⟨hown, hhandler, rfl⟩

theorem ofTask_not_own {i : Nat} {t t' : SessionTask} {de : DelegationEvent}
    (h : DelegationEvent.ofTask i t t' = some de) : de.isOwn = false := by
  unfold DelegationEvent.ofTask at h
  split at h
  · cases h; rfl
  · split at h
    · cases h; rfl
    · cases h

/-- A step of the server is at most one step of the handler, which is not one of the handler's own. -/
theorem follow_cases {server : TcpServer} {e : ServerEvent} {handler : ThreadPoolHandler W}
    (hf : x.follow process server e = some handler) :
    handler = x.handler ∨ ∃ de, de.isOwn = false ∧ x.handler.step process de = some handler := by
  unfold follow at hf
  split at hf
  · split at hf
    · split at hf
      · split at hf
        · cases hf; exact Or.inl rfl
        · cases hf
      · split at hf
        · exact Or.inr ⟨_, ofTask_not_own ‹_›, hf⟩
        · cases hf; exact Or.inl rfl
    · cases hf; exact Or.inl rfl
  · split at hf
    · exact Or.inr ⟨.accept, rfl, hf⟩
    · cases hf; exact Or.inl rfl
  · cases hf; exact Or.inl rfl

/-- The steps of the server that are not a task's keep the logs, and a task that is spawned has an empty one. -/
theorem server_logs {s s' : TcpServer} {e : ServerEvent} (h : ServerStep s e s')
    (he : ∀ i e', e ≠ .task i e') :
    (s'.tasks.length = s.tasks.length ∧ s'.tasks.map SessionTask.log = s.tasks.map SessionTask.log) ∨
      (e = .accept ∧ s'.tasks = s.tasks ++ [({} : SessionTask)]) := by
  cases h with
  | task hi ht => exact absurd rfl (he _ _)
  | close hi ht =>
      obtain ⟨_, _, _, hlog⟩ := SessionTask.close_eq ht
      exact Or.inl ⟨List.length_set, map_set_eq _ hi hlog⟩
  | closeNext hc hi ht =>
      obtain ⟨_, _, _, hlog⟩ := SessionTask.close_eq ht
      exact Or.inl ⟨List.length_set, map_set_eq _ hi hlog⟩
  | @abort i todo t hc hi =>
      obtain ⟨_, _, hlog⟩ := t.abort_eq
      exact Or.inl ⟨List.length_set, map_set_eq _ hi hlog⟩
  | spawn ha => exact Or.inr ⟨rfl, rfl⟩
  | _ => exact Or.inl ⟨rfl, rfl⟩

theorem Coupled.task {i : Nat} {e : TaskEvent} (h : x.Coupled)
    (hs : step config process x (.server (.task i e)) = some x') : x'.Coupled := by
  obtain ⟨hserver, hfollow⟩ := step_server hs
  obtain ⟨t, hi, hserver⟩ := Option.bind_eq_some_iff.mp hserver
  obtain ⟨⟨b, t'⟩, ht, hserver⟩ := Option.map_eq_some_iff.mp hserver
  have htask := SessionTask.step_step ht
  have htasks : x'.server.tasks = x.server.tasks.set i t' := by rw [← hserver]
  have hi' : x'.server.tasks[i]? = some t' := by
    rw [htasks, List.getElem?_set_self (List.getElem?_eq_some_iff.mp hi).1]
  simp only [follow, hi, hi'] at hfollow
  unfold Coupled
  rw [htasks]
  rcases htask.log_cases with hlog | ⟨c, hlog, hnot⟩
  · -- no callback
    rw [map_set_eq _ hi hlog, ← h]
    have hof : DelegationEvent.ofTask i t t' =
        if t'.stage = .panicked ∨ t'.stage = .cancelled then some (.tearDown i) else none := by
      rw [DelegationEvent.ofTask, hlog, List.drop_length]
    split at hfollow
    · split at hfollow
      · rw [← Option.some.inj hfollow]
      · cases hfollow
    · rw [hof] at hfollow
      split at hfollow
      · rename_i de hde
        split at hde
        · cases hde
          exact ThreadPoolHandler.tearDown_received hfollow
        · cases hde
      · rw [← Option.some.inj hfollow]
  · have hof : DelegationEvent.ofTask i t t' = some (.call i c) := by
      rw [DelegationEvent.ofTask, hlog, List.drop_left]
    rw [if_neg hnot, hof] at hfollow
    obtain ⟨log, hget, hreceived⟩ := ThreadPoolHandler.call_received hfollow
    rw [h, List.getElem?_map, hi, Option.map_some, Option.some.injEq] at hget
    rw [hreceived, h, List.map_set, hlog, hget]

theorem Coupled.step {e : HandledEvent} (h : x.Coupled) (hs : step config process x e = some x') : x'.Coupled := by
  cases e with
  | handler e =>
      obtain ⟨hown, hhandler, hserver⟩ := step_handler hs
      unfold Coupled
      rw [ThreadPoolHandler.own_received hhandler hown, hserver]
      exact h
  | server e =>
      obtain ⟨hserver, hfollow⟩ := step_server hs
      have hstep := TcpServer.step_step hserver
      -- the handler does not take a step with the server
      have hkeep : x'.handler = x.handler →
          x'.server.tasks.map SessionTask.log = x.server.tasks.map SessionTask.log → x'.Coupled := by
        intro hhandler hlogs
        unfold Coupled
        rw [hhandler, hlogs]
        exact h
      cases e with
      | task i e => exact h.task hs
      | accept =>
          rcases server_logs hstep (fun _ _ h => by cases h) with ⟨hlength, hlogs⟩ | ⟨_, htasks⟩
          · simp only [follow, hlength, Nat.lt_irrefl, if_false, Option.some.injEq] at hfollow
            exact hkeep hfollow.symm hlogs
          · have hmore : x.server.tasks.length < x'.server.tasks.length := by
              rw [htasks, List.length_append]
              exact Nat.lt_succ_self _
            simp only [follow, if_pos hmore, ThreadPoolHandler.step, Option.some.injEq] at hfollow
            unfold Coupled
            rw [← hfollow, htasks, List.map_append, ← h]
            exact List.map_append
      | _ =>
          rcases server_logs hstep (fun _ _ h => by cases h) with ⟨_, hlogs⟩ | ⟨he, _⟩
          · exact hkeep (Option.some.inj hfollow).symm hlogs
          · cases he

/-! ## Runs -/

theorem Coupled.withConfig (config : ServerConfig) (world : W) : (withConfig config world).Coupled := rfl

/-- What every step of the server keeps and every step of the handler that the run may take. -/
theorem run_handler {I : TcpServer → Prop} {J : ThreadPoolHandler W → Prop} {D : DelegationEvent → Prop}
    (hI : ∀ s e s', I s → s.step config e = some s' → I s')
    (hJ : ∀ h e h', J h → D e → ThreadPoolHandler.step process h e = some h' → J h')
    (hD : ∀ de : DelegationEvent, de.isOwn = false → D de) {es : List HandledEvent}
    (hes : ∀ de, HandledEvent.handler de ∈ es → D de) (h : I x.server ∧ J x.handler)
    (hr : run (HandledServer.step config process) x es = some x') : I x'.server ∧ J x'.handler := by
  refine run_preserves (C := fun _ e => ∀ de, e = .handler de → D de) (I := fun x => I x.server ∧ J x.handler)
    (fun x e x' h hC hs => ?_) h (along_of_forall fun e he => by rintro de rfl; exact hes de he) hr
  cases e with
  | server e =>
      obtain ⟨hserver, hfollow⟩ := step_server hs
      refine ⟨hI _ _ _ h.1 hserver, ?_⟩
      rcases follow_cases hfollow with hsame | ⟨de, hown, hde⟩
      · rw [hsame]; exact h.2
      · exact hJ _ _ _ h.2 (hD de hown) hde
  | handler e =>
      obtain ⟨_, hhandler, hserver⟩ := step_handler hs
      exact ⟨hserver ▸ h.1, hJ _ _ _ h.2 (hC e rfl) hhandler⟩

/-- The session of a task, and the message of it that is on its way. -/
theorem run_session {world : W} {es : List HandledEvent}
    (hr : run (HandledServer.step config process) (withConfig config world) es = some x) {i : Nat} {t : SessionTask}
    (hi : x.server.tasks[i]? = some t) : t.Shaped ∧ ∃ s pending, x.handler.sessions[i]? = some s ∧
      s.received = t.log ∧ s.Delegates process pending ∧ (s.stage = .idle ∨ s.stage = .inner → pending = none) := by
  obtain ⟨hmetered, hdelegating⟩ := run_handler (fun s e s' (h : s.Metered) hs => h.step (TcpServer.step_step hs))
    (D := fun _ => True) (fun h e h' (hd : h.Delegating process) _ hs => hd.step hs) (fun _ _ => trivial)
    (fun _ _ => trivial) ⟨.withConfig config, .fresh world⟩ hr
  have hcoupled : x.Coupled := run_invariant (fun _ _ _ h hs => h.step hs) (Coupled.withConfig config world) hr
  have hlog : x.handler.received[i]? = some t.log := by
    rw [hcoupled, List.getElem?_map, hi]
    rfl
  obtain ⟨s, hs, hreceived⟩ := Option.map_eq_some_iff.mp ((List.getElem?_map ..).symm.trans hlog)
  obtain ⟨pending, hdelegates, hpending⟩ := (hdelegating i s hs).delegates
  exact ⟨hmetered.shaped i t hi, s, pending, hs, hreceived, hdelegates, hpending⟩

end HandledServer

end NetworkSystem
