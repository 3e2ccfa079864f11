import NetworkSystem.Shutdown.GracefulShutdown

/-!
# Guards and waits

`ShutdownStep` lists the steps of all calls. From it come the two invariants: what a completed wait knows
about the calls of `enter`, and what a parked wait can rely on.
-/

namespace NetworkSystem

open TaskPool

inductive ShutdownStep (s : GracefulShutdown) :
    ShutdownCall → ShutdownEvent → GracefulShutdown → ShutdownCall → Prop
  | allow (h : s.shutdownRequested = false) : ShutdownStep s .entering .go s .checked
  | refuse (h : s.shutdownRequested = true) : ShutdownStep s .entering .go s .rejected
  | raise : ShutdownStep s .checked .go { s with activeRequests := s.activeRequests + 1 } .live
  | lower (h : s.activeRequests ≠ 1) :
      ShutdownStep s .live .go { s with activeRequests := s.activeRequests - 1 } .ended
  | lowerLast (h : s.activeRequests = 1) :
      ShutdownStep s .live .go { s with activeRequests := s.activeRequests - 1 } .notifying
  | notify : ShutdownStep s .notifying .go { s with notifyCalls := s.notifyCalls + 1 } .ended
  | request : ShutdownStep s (.requesting false) .go { s with shutdownRequested := true } .requested
  | requestAndWait : ShutdownStep s (.requesting true) .go { s with shutdownRequested := true } .waiting
  | begin : ShutdownStep s .waiting .go s (.started s.shutdownRequested)
  | idle {c : ShutdownCall} {after : Bool} (hc : c = .started after ∨ c = .loading after)
      (h : s.activeRequests = 0) : ShutdownStep s c .go s (.completed after)
  | busy {c : ShutdownCall} {after : Bool} (hc : c = .started after ∨ c = .loading after)
      (h : s.activeRequests ≠ 0) : ShutdownStep s c .go s (.loaded after)
  | register {after : Bool} : ShutdownStep s (.loaded after) .go s (.parked after s.notifyCalls)
  | wake {after : Bool} {seen : Nat} (h : seen < s.notifyCalls) :
      ShutdownStep s (.parked after seen) .go s (.loading after)
  | timeOut {c : ShutdownCall} {after : Bool} (hc : c = .started after ∨ ∃ seen, c = .parked after seen) :
      ShutdownStep s c .timer s (.timedOut after)
  | abandon {c : ShutdownCall} {after : Bool} (hc : c = .started after ∨ ∃ seen, c = .parked after seen) :
      ShutdownStep s c .abandon s .abandoned

variable {s s' : GracefulShutdown} {c c' : ShutdownCall} {e : ShutdownEvent}

theorem GracefulShutdown.loadIdle_step {after : Bool} (hc : c = .started after ∨ c = .loading after) :
    ShutdownStep s c .go s (s.loadIdle after) := by
  unfold GracefulShutdown.loadIdle
  split
  · exact .idle hc ‹_›
  · exact .busy hc ‹_›

theorem GracefulShutdown.go_step (h : s.go c = some (s', c')) : ShutdownStep s c .go s' c' := by
  cases c with
  | entering =>
      simp only [GracefulShutdown.go] at h
      cases hf : s.shutdownRequested with
      | true => rw [hf] at h; cases h; exact .refuse hf
      | false => rw [hf] at h; cases h; exact .allow hf
  | checked => cases h; exact .raise
  | live =>
      simp only [GracefulShutdown.go] at h
      split at h
      · cases h; exact .lowerLast ‹_›
      · cases h; exact .lower ‹_›
  | notifying => cases h; exact .notify
  | requesting andWait =>
      cases andWait with
      | true => cases h; exact .requestAndWait
      | false => cases h; exact .request
  | waiting => cases h; exact .begin
  | started after =>
      obtain ⟨rfl, rfl⟩ := Prod.mk.inj (Option.some.inj h)
      exact GracefulShutdown.loadIdle_step (Or.inl rfl)
  | loading after =>
      obtain ⟨rfl, rfl⟩ := Prod.mk.inj (Option.some.inj h)
      exact GracefulShutdown.loadIdle_step (Or.inr rfl)
  | loaded after => cases h; exact .register
  | parked after seen =>
      simp only [GracefulShutdown.go] at h
      split at h
      · cases h; exact .wake ‹_›
      · cases h
  | _ => cases h

theorem GracefulShutdown.callStep_step (h : GracefulShutdown.callStep s c e = some (s', c')) :
    ShutdownStep s c e s' c' := by
  cases e with
  | go => exact GracefulShutdown.go_step h
  | timer =>
      cases c with
      | started after => cases h; exact .timeOut (Or.inl rfl)
      | parked after seen => cases h; exact .timeOut (Or.inr ⟨seen, rfl⟩)
      | _ => cases h
  | abandon =>
      cases c with
      | started after => cases h; exact .abandon (Or.inl rfl)
      | parked after seen => cases h; exact .abandon (Or.inr ⟨seen, rfl⟩)
      | _ => cases h

/-! ## The counter counts the live guards -/

/-- What a call adds to the counter. -/
def ShutdownCall.active (c : ShutdownCall) : Nat := if c = .live then 1 else 0

theorem ShutdownStep.active (h : ShutdownStep s c e s' c') (hle : c.active ≤ s.activeRequests) :
    s'.activeRequests + c.active = s.activeRequests + c'.active := by
  cases h with
  | lower h => simp only [ShutdownCall.active, reduceCtorEq, if_true, if_false] at hle ⊢; omega
  | lowerLast h => simp only [ShutdownCall.active, reduceCtorEq, if_true, if_false] at hle ⊢; omega
  | idle hc h => rcases hc with rfl | rfl <;> rfl
  | busy hc h => rcases hc with rfl | rfl <;> rfl
  | timeOut hc => rcases hc with rfl | ⟨seen, rfl⟩ <;> rfl
  | abandon hc => rcases hc with rfl | ⟨seen, rfl⟩ <;> rfl
  | _ => rfl

def ShutdownPool.Counted (p : ShutdownPool) : Prop :=
  p.shared.activeRequests = p.total ShutdownCall.active

theorem ShutdownPool.Counted.step {p p' : ShutdownPool} (h : p.Counted)
    {e : Event ShutdownCallKind ShutdownEvent} (hs : shutdownCalls.step p e = some p') : p'.Counted :=
  Program.accounts (f := GracefulShutdown.activeRequests)
    (fun _ _ _ _ _ hle ha => (GracefulShutdown.callStep_step ha).active hle)
    (fun k => by cases k <;> rfl) hs h

theorem ShutdownPool.Counted.not_live {p : ShutdownPool} (h : p.Counted)
    (h₀ : p.shared.activeRequests = 0) : .live ∉ p.tasks := by
  intro hl
  have hle : ShutdownCall.active .live ≤ p.total ShutdownCall.active := le_total_of_mem _ hl
  have h₁ : ShutdownCall.active .live = 1 := rfl
  have := h.symm.trans h₀
  omega

theorem ShutdownPool.Counted.exists_live {p : ShutdownPool} (h : p.Counted)
    (h₀ : p.shared.activeRequests ≠ 0) : .live ∈ p.tasks := by
  obtain ⟨c, hc, hpos⟩ := exists_of_total_pos ShutdownCall.active (Nat.pos_of_ne_zero (h ▸ h₀))
  have hl : c = .live := by
    by_contra hne
    rw [ShutdownCall.active, if_neg hne] at hpos
    exact Nat.lt_irrefl 0 hpos
  exact hl ▸ hc

/-! ## A completed wait -/

/-- Whether the wait began after shutdown was requested. -/
def ShutdownCall.after : ShutdownCall → Bool
  | .started after | .loading after | .loaded after | .parked after _ | .completed after
  | .timedOut after => after
  | _ => false

theorem ShutdownStep.flag (h : ShutdownStep s c e s' c') (hf : s.shutdownRequested = true) :
    s'.shutdownRequested = true := by
  cases h with
  | request => rfl
  | requestAndWait => rfl
  | _ => exact hf

theorem ShutdownStep.after (h : ShutdownStep s c e s' c')
    (hc : c.after = true → s.shutdownRequested = true) :
    c'.after = true → s'.shutdownRequested = true := by
  intro ha
  cases h with
  | begin => exact ha
  | idle hc' h => rcases hc' with rfl | rfl <;> exact hc ha
  | busy hc' h => rcases hc' with rfl | rfl <;> exact hc ha
  | register => exact hc ha
  | wake h => exact hc ha
  | timeOut hc' => rcases hc' with rfl | ⟨seen, rfl⟩ <;> exact hc ha
  | _ => cases ha

/-- Once a wait that began after the request has completed, no call of `enter` is on its way to a guard
and none has one. -/
structure ShutdownPool.Drained (p : ShutdownPool) : Prop where
  counted : p.Counted
  flagged : ∀ c ∈ p.tasks, c.after = true → p.shared.shutdownRequested = true
  closed : .completed true ∈ p.tasks → .checked ∉ p.tasks ∧ .live ∉ p.tasks

theorem ShutdownPool.Drained.fresh : ShutdownPool.Drained GracefulShutdown.fresh where
  counted := rfl
  flagged := by simp [GracefulShutdown.fresh]
  closed := by simp [GracefulShutdown.fresh]

theorem ShutdownPool.Drained.closed_act {p : ShutdownPool} (h : p.Drained) {i : Nat}
    (hC : p.NoEnterPastCheck (.act i e)) (hi : p.tasks[i]? = some c)
    (hstep : ShutdownStep p.shared c e s' c') (hm : .completed true ∈ p.tasks.set i c') :
    .checked ∉ p.tasks.set i c' ∧ .live ∉ p.tasks.set i c' := by
  rcases List.mem_or_eq_of_mem_set hm with hold | rfl
  · obtain ⟨hchecked, hlive⟩ := h.closed hold
    have hflag := h.flagged _ hold rfl
    constructor
    · refine fun hm => hchecked (mem_of_mem_set hm ?_)
      rintro rfl
      cases hstep with
      | allow hf => rw [hflag] at hf; cases hf
    · refine fun hm => hlive (mem_of_mem_set hm ?_)
      rintro rfl
      cases hstep with
      | raise => exact hchecked (List.mem_of_getElem? hi)
  · -- the wait has just read the counter as zero
    cases hstep with
    | idle hc h₀ =>
        have hchecked : .checked ∉ p.tasks := by
          refine hC ?_ h₀
          rcases hc with rfl | rfl
          · exact Or.inl hi
          · exact Or.inr hi
        have hlive := h.counted.not_live h₀
        exact ⟨fun hm => hchecked (mem_of_mem_set hm nofun), fun hm => hlive (mem_of_mem_set hm nofun)⟩

theorem ShutdownPool.Drained.step {p p' : ShutdownPool} (h : p.Drained)
    {e : Event ShutdownCallKind ShutdownEvent} (hC : p.NoEnterPastCheck e)
    (hs : shutdownCalls.step p e = some p') : p'.Drained where
  counted := h.counted.step hs
  flagged :=
    Program.forall_tasks (I := fun s c => ShutdownCall.after c = true → s.shutdownRequested = true)
      (fun _ _ _ _ _ ha hc => (GracefulShutdown.callStep_step ha).after hc)
      (fun _ _ _ _ _ _ ha _ hu hafter => (GracefulShutdown.callStep_step ha).flag (hu hafter))
      (fun _ k => by cases k <;> exact nofun) hs h.flagged
  closed := by
    cases e with
    | spawn k =>
        rw [Program.step_spawn] at hs
        cases hs
        have hstart : ∀ c, c ∈ p.tasks ++ [shutdownCalls.start k] → c.after = true ∨ c = .checked ∨
            c = .live → c ∈ p.tasks := by
          intro c hc hkind
          rcases List.mem_append.mp hc with hc | hc
          · exact hc
          · rw [List.mem_singleton.mp hc] at hkind
            cases k <;> simp [shutdownCalls, GracefulShutdown.start, ShutdownCall.after] at hkind
        intro hm
        obtain ⟨hchecked, hlive⟩ := h.closed (hstart _ hm (Or.inl rfl))
        exact ⟨fun hm => hchecked (hstart _ hm (Or.inr (Or.inl rfl))),
          fun hm => hlive (hstart _ hm (Or.inr (Or.inr rfl)))⟩
    | act i e =>
        obtain ⟨c, s', c', hi, ha, rfl⟩ := Program.step_act.mp hs
        exact h.closed_act hC hi (GracefulShutdown.callStep_step ha)

/-! ## A parked wait -/

/-- The call has read a counter that was not zero, and no notification reached it since. -/
def ShutdownCall.Awaits (s : GracefulShutdown) (c : ShutdownCall) : Prop :=
  ∃ after, c = .loaded after ∨ c = .parked after s.notifyCalls

/-- A request is active or the drop of a guard is in progress. -/
def ShutdownPool.Busy (p : ShutdownPool) : Prop :=
  p.shared.activeRequests ≠ 0 ∨ .notifying ∈ p.tasks

/-- Every wait that was not notified can rely on a notification to come. -/
structure ShutdownPool.Heard (p : ShutdownPool) : Prop where
  counted : p.Counted
  seen : ∀ c ∈ p.tasks, ∀ after seen, c = .parked after seen → seen ≤ p.shared.notifyCalls
  awaited : ∀ c ∈ p.tasks, c.Awaits p.shared → p.Busy

theorem ShutdownPool.Heard.fresh : ShutdownPool.Heard GracefulShutdown.fresh where
  counted := rfl
  seen := by simp [GracefulShutdown.fresh]
  awaited := by simp [GracefulShutdown.fresh]

theorem ShutdownStep.seen (h : ShutdownStep s c e s' c')
    (hc : ∀ after seen, c = .parked after seen → seen ≤ s.notifyCalls) :
    ∀ after seen, c' = .parked after seen → seen ≤ s'.notifyCalls := by
  intro after seen hp
  cases h with
  | register => cases hp; exact Nat.le_refl _
  | _ => cases hp

theorem ShutdownStep.notifyCalls_le (h : ShutdownStep s c e s' c') : s.notifyCalls ≤ s'.notifyCalls := by
  cases h with
  | notify => exact Nat.le_succ _
  | _ => exact Nat.le_refl _

/-- A step that is not a notification keeps the pool busy as long as the counter stays. -/
theorem ShutdownPool.Busy.act {p : ShutdownPool} (h : p.Busy) {i : Nat} (hi : p.tasks[i]? = some c)
    (hne : c ≠ .notifying) (hs : s'.activeRequests = p.shared.activeRequests) :
    ShutdownPool.Busy ⟨s', p.tasks.set i c'⟩ := by
  rcases h with h | h
  · exact Or.inl (hs ▸ h)
  · exact Or.inr (mem_set_of_ne hi h hne.symm)

theorem ShutdownPool.Heard.awaited_act {p : ShutdownPool} (h : p.Heard) {i : Nat}
    (hC : p.NotifiesRegistered (.act i e)) (hi : p.tasks[i]? = some c)
    (hstep : ShutdownStep p.shared c e s' c') :
    ∀ u ∈ p.tasks.set i c', u.Awaits s' → ShutdownPool.Busy ⟨s', p.tasks.set i c'⟩ := by
  intro u hu hawaits
  -- the steps that touch neither the counter nor the notifications
  have hquiet : c ≠ .notifying → s'.activeRequests = p.shared.activeRequests →
      s'.notifyCalls = p.shared.notifyCalls → (u = c' → c.Awaits p.shared) →
      ShutdownPool.Busy ⟨s', p.tasks.set i c'⟩ := by
    intro hne hact hcalls hown
    refine ShutdownPool.Busy.act ?_ hi hne hact
    rcases List.mem_or_eq_of_mem_set hu with hu | hu
    · refine h.awaited u hu ?_
      rwa [ShutdownCall.Awaits, hcalls] at hawaits
    · exact h.awaited c (List.mem_of_getElem? hi) (hown hu)
  have hidle : (∀ after, c' ≠ .loaded after ∧ ∀ seen, c' ≠ .parked after seen) →
      u = c' → c.Awaits p.shared := by
    rintro hc' rfl
    obtain ⟨after, ha | ha⟩ := hawaits
    · exact absurd ha (hc' after).1
    · exact absurd ha ((hc' after).2 _)
  cases hstep with
  | raise => exact Or.inl (Nat.succ_ne_zero _)
  | lower hne =>
      -- the guard is live, so the counter was at least 2
      have hpos : p.shared.activeRequests ≠ 0 := fun h₀ =>
        h.counted.not_live h₀ (List.mem_of_getElem? hi)
      refine Or.inl (?_ : p.shared.activeRequests - 1 ≠ 0)
      omega
  | lowerLast h₁ =>
      exact Or.inr (List.mem_set (List.getElem?_eq_some_iff.mp hi).1 _)
  | busy hc h₀ => exact Or.inl h₀
  | register =>
      exact hquiet nofun rfl rfl fun _ => ⟨_, Or.inl rfl⟩
  | notify =>
      obtain ⟨after, rfl | rfl⟩ := hawaits
      · by_cases h₀ : p.shared.activeRequests = 0
        · -- another drop in progress is left to notify
          by_cases hother : .notifying ∈ p.tasks.eraseIdx i
          · exact Or.inr (mem_set_of_mem_eraseIdx hother)
          · rcases List.mem_or_eq_of_mem_set hu with hu | hu
            · exact absurd hu (hC hi h₀ hother after)
            · cases hu
        · exact Or.inl h₀
      · rcases List.mem_or_eq_of_mem_set hu with hu | hu
        · exact absurd (h.seen _ hu _ _ rfl) (Nat.not_succ_le_self _)
        · cases hu
  | idle hc h₀ =>
      rcases hc with rfl | rfl <;>
        exact hquiet nofun rfl rfl (hidle fun _ => ⟨nofun, nofun⟩)
  | timeOut hc =>
      rcases hc with rfl | ⟨seen, rfl⟩ <;>
        exact hquiet nofun rfl rfl (hidle fun _ => ⟨nofun, nofun⟩)
  | abandon hc =>
      rcases hc with rfl | ⟨seen, rfl⟩ <;>
        exact hquiet nofun rfl rfl (hidle fun _ => ⟨nofun, nofun⟩)
  | _ => exact hquiet nofun rfl rfl (hidle fun _ => ⟨nofun, nofun⟩)

theorem ShutdownPool.Heard.step {p p' : ShutdownPool} (h : p.Heard)
    {e : Event ShutdownCallKind ShutdownEvent} (hC : p.NotifiesRegistered e)
    (hs : shutdownCalls.step p e = some p') : p'.Heard where
  counted := h.counted.step hs
  seen :=
    Program.forall_tasks
      (I := fun s c => ∀ after seen, c = ShutdownCall.parked after seen → seen ≤ s.notifyCalls)
      (fun _ _ _ _ _ ha hc => (GracefulShutdown.callStep_step ha).seen hc)
      (fun _ _ _ _ _ _ ha _ hu after seen hp =>
        (hu after seen hp).trans (GracefulShutdown.callStep_step ha).notifyCalls_le)
      (fun _ k => by cases k <;> exact nofun) hs h.seen
  awaited := by
    cases e with
    | spawn k =>
        rw [Program.step_spawn] at hs
        cases hs
        intro c hc hawaits
        have hc' : c ∈ p.tasks := by
          rcases List.mem_append.mp hc with hc | hc
          · exact hc
          · rw [List.mem_singleton.mp hc] at hawaits
            obtain ⟨after, ha⟩ := hawaits
            cases k <;> rcases ha with ha | ha <;> cases ha
        rcases h.awaited c hc' hawaits with hb | hb
        · exact Or.inl hb
        · exact Or.inr (List.mem_append_left _ hb)
    | act i e =>
        obtain ⟨c, s', c', hi, ha, rfl⟩ := Program.step_act.mp hs
        exact h.awaited_act hC hi (GracefulShutdown.callStep_step ha)

end NetworkSystem
