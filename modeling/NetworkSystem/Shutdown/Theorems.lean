import NetworkSystem.Shutdown.Lemmas.Waits

/-!
# What a graceful shutdown promises

Both promises hold as long as one window of the code is not hit: between the check and the increment of
`enter`, and between the load and the registration of a wait.
-/

namespace NetworkSystem

open Steps TaskPool ShutdownPool

/-! ## Nothing is admitted after completion -/

/-- In every run in which no wait reads the counter as zero while a call of `enter` is past its check: once
a wait that began after the request has returned `true`, no guard is live and no call of `enter` returns
one any more. -/
theorem shutdown_admits_nothing (es : List (Event ShutdownCallKind ShutdownEvent))
    (hC : Along shutdownCalls.step NoEnterPastCheck GracefulShutdown.fresh es) :
    Always shutdownCalls.step AdmitsNothing GracefulShutdown.fresh es := by
  refine always_of_preserves (fun _ _ _ h hC hs => h.step hC hs) ?_ Drained.fresh hC
  intro p h hm
  obtain ⟨hchecked, hlive⟩ := h.closed hm
  refine ⟨hlive, ?_⟩
  intro e p' hs hm'
  cases e with
  | spawn k =>
      rw [Program.step_spawn] at hs
      cases hs
      rcases List.mem_append.mp hm' with hm' | hm'
      · exact hlive hm'
      · rw [List.mem_singleton] at hm'
        cases k <;> cases hm'
  | act i e =>
      obtain ⟨c, s', c', hi, ha, rfl⟩ := Program.step_act.mp hs
      refine hlive (mem_of_mem_set hm' ?_)
      rintro rfl
      have hstep := GracefulShutdown.callStep_step ha
      cases hstep with
      | raise => exact hchecked (List.mem_of_getElem? hi)

/-- A request is admitted and ends, then shutdown is requested and awaited. -/
def shutdownAfterRequest : List (Event ShutdownCallKind ShutdownEvent) :=
  .spawn .enter :: acts 0 [.go, .go, .go, .go] ++ .spawn .shutdownAndWait :: acts 1 [.go, .go, .go]

theorem shutdown_admits_nothing_after_request :
    (∃ p, run shutdownCalls.step GracefulShutdown.fresh shutdownAfterRequest = some p ∧
      .completed true ∈ p.tasks) ∧
    Always shutdownCalls.step AdmitsNothing GracefulShutdown.fresh shutdownAfterRequest :=
  ⟨⟨_, rfl, by decide⟩, shutdown_admits_nothing shutdownAfterRequest (by decide)⟩

/-- A call of `enter` checks the flag; shutdown is requested, and its wait completes, before the call goes
on and raises the counter. -/
def enterAcrossShutdown : List (Event ShutdownCallKind ShutdownEvent) :=
  .spawn .enter :: acts 0 [.go] ++ .spawn .shutdownAndWait :: acts 1 [.go, .go, .go] ++ acts 0 [.go]

theorem enter_admits_after_completion :
    (∃ p, run shutdownCalls.step GracefulShutdown.fresh enterAcrossShutdown = some p ∧
      p.tasks = [.live, .completed true]) ∧
    ¬ Always shutdownCalls.step AdmitsNothing GracefulShutdown.fresh enterAcrossShutdown := by
  refine ⟨⟨_, rfl, by decide⟩, ?_⟩
  intro h
  have hrun : run shutdownCalls.step GracefulShutdown.fresh enterAcrossShutdown =
      some ⟨⟨true, 1, 0⟩, [.live, .completed true]⟩ := rfl
  exact (h.last hrun (by decide)).1 (by decide)

/-! ## No lost wakeup -/

/-- In every run in which the last drop in progress never notifies while a wait is between its load and
its registration, and the timer of a wait is not taken in place of a wait that is due: no wait is parked
without a notification while nothing is left to notify it, and a wait returns `false` only while a guard
is live or being dropped. -/
theorem shutdown_wakes_waiter (es : List (Event ShutdownCallKind ShutdownEvent))
    (hC : Along shutdownCalls.step NotifiesRegistered GracefulShutdown.fresh es) :
    Always shutdownCalls.step NoLostWakeup GracefulShutdown.fresh es ∧
      Along shutdownCalls.step HonestTimeout GracefulShutdown.fresh es := by
  have hstep : ∀ (p : ShutdownPool) e p', Heard p → NotifiesRegistered p e →
      shutdownCalls.step p e = some p' → Heard p' := fun _ _ _ h hC hs => h.step hC hs
  refine ⟨always_of_preserves hstep ?_ Heard.fresh hC, along_of_preserves hstep ?_ Heard.fresh hC⟩
  · intro p h after hm
    exact h.awaited _ hm ⟨after, Or.inr rfl⟩
  · intro p e h hC
    cases e with
    | spawn k => trivial
    | act i e =>
        cases e with
        | timer =>
            by_cases h₀ : p.shared.activeRequests = 0
            · obtain ⟨after, hi⟩ := hC h₀
              rcases h.awaited _ (List.mem_of_getElem? hi) ⟨after, Or.inr rfl⟩ with hb | hb
              · exact absurd h₀ hb
              · exact Or.inr hb
            · exact Or.inl (h.counted.exists_live h₀)
        | _ => trivial

/-- The wait is registered before the guard is dropped. -/
def dropAfterRegistration : List (Event ShutdownCallKind ShutdownEvent) :=
  .spawn .enter :: acts 0 [.go, .go] ++ .spawn .shutdownAndWait :: acts 1 [.go, .go, .go, .go] ++
    acts 0 [.go, .go] ++ acts 1 [.go, .go]

theorem shutdown_wakes_registered_waiter :
    (∃ p, run shutdownCalls.step GracefulShutdown.fresh dropAfterRegistration = some p ∧
      p.tasks = [.ended, .completed true]) ∧
    Always shutdownCalls.step NoLostWakeup GracefulShutdown.fresh dropAfterRegistration ∧
      Along shutdownCalls.step HonestTimeout GracefulShutdown.fresh dropAfterRegistration :=
  ⟨⟨_, rfl, by decide⟩, shutdown_wakes_waiter dropAfterRegistration (by decide)⟩

/-- The wait reads the counter as one; the guard is dropped and notifies before the wait registers. -/
def dropBeforeRegistration : List (Event ShutdownCallKind ShutdownEvent) :=
  .spawn .enter :: acts 0 [.go, .go] ++ .spawn .shutdownAndWait :: acts 1 [.go, .go, .go] ++
    acts 0 [.go, .go] ++ acts 1 [.go]

theorem shutdown_wakeup_lost :
    (∃ p, run shutdownCalls.step GracefulShutdown.fresh dropBeforeRegistration = some p ∧
      p = ⟨⟨true, 0, 1⟩, [.ended, .parked true 1]⟩ ∧ ¬ NoLostWakeup p) ∧
    ∃ p, run shutdownCalls.step GracefulShutdown.fresh (dropBeforeRegistration ++ acts 1 [.timer]) = some p ∧
      p.tasks = [.ended, .timedOut true] := by
  refine ⟨⟨_, rfl, by decide, ?_⟩, _, rfl, by decide⟩
  intro h
  exact absurd (h true (by decide)) (by decide)

end NetworkSystem
