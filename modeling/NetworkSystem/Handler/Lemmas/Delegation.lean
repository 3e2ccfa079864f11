import NetworkSystem.Handler.ThreadPoolHandler
import NetworkSystem.Lib.TaskPool

/-!
# What becomes of the callbacks

A session waits for one job at a time, and the job has the message that the session was called with last. So the
result that the session takes from the channel belongs to this message, whatever the workers have done in between.
-/

namespace NetworkSystem

open TaskPool

variable {W : Type} {process : MessageProcessor W}

/-! ## Fates -/

namespace DelegatedSession

variable {s : DelegatedSession} {stage : DelegationStage} {c : Callback} {m : Message}

theorem Delegates.fresh : ({} : DelegatedSession).Delegates process none :=
  ⟨[], [], rfl, .nil, rfl, rfl⟩

/-- A callback that is handed on at once. -/
theorem Delegates.forward (h : s.Delegates process none) (hc : Delegation.Of process c (.inner c)) :
    (({ s with received := s.received ++ [c] } : DelegatedSession).handOn c).Delegates process none := by
  obtain ⟨settled, fates, hreceived, hfates, hinner, herrors⟩ := h
  refine ⟨settled ++ [c], fates ++ [.inner c], ?_, ?_, ?_, ?_⟩
  · show s.received ++ [c] = _
    rw [hreceived]
    simp
  · exact List.rel_append hfates (.cons hc .nil)
  · show s.inner ++ [c] = _
    rw [hinner, List.filterMap_append]
    rfl
  · rw [List.filterMap_append]
    exact herrors.trans (List.append_nil _).symm

/-- A message comes in. -/
theorem Delegates.take (h : s.Delegates process none) :
    ({ s with received := s.received ++ [.message m], stage } : DelegatedSession).Delegates process (some m) := by
  obtain ⟨settled, fates, hreceived, hfates, hinner, herrors⟩ := h
  refine ⟨settled, fates, ?_, hfates, hinner, herrors⟩
  show s.received ++ [.message m] = _
  rw [hreceived]
  simp

/-- The message on its way meets its fate. -/
theorem Delegates.handOn (h : s.Delegates process (some m)) (hc : Delegation.Of process (.message m) (.inner c)) :
    (s.handOn c).Delegates process none := by
  obtain ⟨settled, fates, hreceived, hfates, hinner, herrors⟩ := h
  refine ⟨settled ++ [.message m], fates ++ [.inner c], ?_, List.rel_append hfates (.cons hc .nil), ?_, ?_⟩
  · exact hreceived.trans (List.append_nil _).symm
  · show s.inner ++ [c] = _
    rw [hinner, List.filterMap_append]
    rfl
  · rw [List.filterMap_append]
    exact herrors.trans (List.append_nil _).symm

theorem Delegates.report {e : DelegationError} (h : s.Delegates process (some m))
    (he : Delegation.Of process (.message m) (.error e)) : (s.report e).Delegates process none := by
  obtain ⟨settled, fates, hreceived, hfates, hinner, herrors⟩ := h
  refine ⟨settled ++ [.message m], fates ++ [.error e], ?_, List.rel_append hfates (.cons he .nil), ?_, ?_⟩
  · exact hreceived.trans (List.append_nil _).symm
  · rw [List.filterMap_append]
    exact hinner.trans (List.append_nil _).symm
  · show s.errors ++ [e] = _
    rw [herrors, List.filterMap_append]
    rfl

end DelegatedSession

/-! ## The order of the callbacks -/

section Logs

variable {settled : List Callback} {fates : List Delegation} {m : Message} {ms : List Message}

theorem Delegation.of_messages (h : List.Forall₂ (Delegation.Of process) (ms.map .message) fates) :
    ∃ ms' : List Message, fates.filterMap Delegation.seen = ms'.map .message := by
  induction ms generalizing fates with
  | nil => cases h; exact ⟨[], rfl⟩
  | cons m ms ih =>
      cases h with
      | @cons _ fate _ _ hfate hfates =>
          obtain ⟨ms', hms⟩ := ih hfates
          cases fate with
          | error e => exact ⟨ms', hms⟩
          | inner c =>
              cases c with
              | message m' => exact ⟨m' :: ms', congrArg (Callback.message m' :: ·) hms⟩
              | connected | disconnected => cases hfate

/-- Whatever the processor makes of the messages, the inner handler is called in order. -/
theorem OpenLog.inner (ho : OpenLog settled) (h : List.Forall₂ (Delegation.Of process) settled fates) :
    OpenLog (fates.filterMap Delegation.seen) := by
  obtain ⟨ms, rfl⟩ := ho
  cases h with
  | @cons _ fate _ _ hfate hfates =>
      obtain ⟨ms', hms⟩ := Delegation.of_messages hfates
      cases fate with
      | error e => cases hfate
      | inner c =>
          cases hfate
          exact ⟨ms', congrArg (Callback.connected :: ·) hms⟩

theorem Delegation.of_snoc {c : Callback} (h : List.Forall₂ (Delegation.Of process) (settled ++ [c]) fates) :
    ∃ before last, fates = before ++ [last] ∧ List.Forall₂ (Delegation.Of process) settled before ∧
      Delegation.Of process c last := by
  induction settled generalizing fates with
  | nil =>
      cases h with
      | cons hlast hnil =>
          cases hnil
          exact ⟨[], _, rfl, .nil, hlast⟩
  | cons c' settled ih =>
      cases h with
      | cons hfate hfates =>
          obtain ⟨before, last, rfl, hbefore, hlast⟩ := ih hfates
          exact ⟨_ :: before, last, rfl, .cons hfate hbefore, hlast⟩

theorem ClosedLog.inner (hc : ClosedLog settled) (h : List.Forall₂ (Delegation.Of process) settled fates) :
    ClosedLog (fates.filterMap Delegation.seen) := by
  obtain ⟨ms, rfl⟩ := hc
  rw [← List.cons_append] at h
  obtain ⟨before, last, rfl, hbefore, hlast⟩ := Delegation.of_snoc h
  obtain ⟨ms', hms⟩ := OpenLog.inner ⟨ms, rfl⟩ hbefore
  cases last with
  | error e => cases hlast
  | inner c =>
      cases hlast
      refine ⟨ms', ?_⟩
      rw [List.filterMap_append, hms]
      rfl

theorem OpenLog.of_pending (h : OpenLog (settled ++ [.message m])) : OpenLog settled := by
  obtain ⟨ms, h⟩ := h
  rcases List.eq_nil_or_concat ms with rfl | ⟨before, last, rfl⟩
  · have hsnoc : settled ++ [.message m] = [] ++ [Callback.connected] := h
    cases (List.append_inj' hsnoc rfl).2
  · rw [List.concat_eq_append, List.map_append, ← List.cons_append] at h
    exact ⟨before, (List.append_inj' h rfl).1⟩

theorem ClosedLog.not_pending (h : ClosedLog (settled ++ [.message m])) : False := by
  obtain ⟨ms, h⟩ := h
  rw [← List.cons_append] at h
  cases (List.append_inj' h rfl).2

theorem DelegatedSession.Delegates.bracketed {s : DelegatedSession} {pending : Option Message}
    (h : s.Delegates process pending) (hlog : s.received = [] ∨ OpenLog s.received ∨ ClosedLog s.received) :
    s.inner = [] ∨ OpenLog s.inner ∨ ClosedLog s.inner := by
  obtain ⟨settled, fates, hreceived, hfates, hinner, -⟩ := h
  rw [hinner]
  rw [hreceived] at hlog
  cases pending with
  | none =>
      have hnone : settled ++ (none.map Callback.message).toList = settled := List.append_nil _
      rw [hnone] at hlog
      rcases hlog with rfl | hopen | hclosed
      · cases hfates; exact Or.inl rfl
      · exact Or.inr (Or.inl (hopen.inner hfates))
      · exact Or.inr (Or.inr (hclosed.inner hfates))
  | some m =>
      rcases hlog with hnil | hopen | hclosed
      · cases (List.append_eq_nil_iff.mp hnil).2
      · exact Or.inr (Or.inl (OpenLog.inner (OpenLog.of_pending hopen) hfates))
      · exact (ClosedLog.not_pending hclosed).elim

theorem DelegatedSession.Delegates.closed {s : DelegatedSession} {pending : Option Message}
    (h : s.Delegates process pending) (hclosed : ClosedLog s.received) : ClosedLog s.inner := by
  obtain ⟨settled, fates, hreceived, hfates, hinner, -⟩ := h
  rw [hreceived] at hclosed
  cases pending with
  | none =>
      rw [hinner]
      exact ClosedLog.inner (by simpa using hclosed) hfates
  | some m => exact (ClosedLog.not_pending hclosed).elim

end Logs

/-! ## Jobs -/

/-- The job is to process this message, or has done so. -/
def Job.Of (process : MessageProcessor W) (m : Message) : Job → Prop
  | .queued m' => m' = m
  | .sent (.ok m') => ∃ w w', process m w = .ok m' w'
  | .sent (.error e) => ∃ w w', process m w = .error e w'
  | .cancelled => True

/-- The message that the session is at, from its stage and the job that it waits for. -/
def DelegatedSession.Settles (process : MessageProcessor W) (jobs : List Job) (s : DelegatedSession) : Prop :=
  match s.stage with
  | .idle | .inner => s.Delegates process none
  | .submitting m => s.Delegates process (some m)
  | .waiting k => ∃ m job, s.Delegates process (some m) ∧ jobs[k]? = some job ∧ job.Of process m
  | .gone => ∃ pending, s.Delegates process pending

namespace DelegatedSession

variable {s s' : DelegatedSession} {jobs jobs' : List Job}

theorem Settles.delegates (h : s.Settles process jobs) :
    ∃ pending, s.Delegates process pending ∧ (s.stage = .idle ∨ s.stage = .inner → pending = none) := by
  unfold Settles at h
  cases hst : s.stage with
  | idle => rw [hst] at h; exact ⟨none, h, fun _ => rfl⟩
  | inner => rw [hst] at h; exact ⟨none, h, fun _ => rfl⟩
  | submitting m =>
      rw [hst] at h
      exact ⟨some m, h, by rintro (h | h) <;> cases h⟩
  | waiting k =>
      rw [hst] at h
      obtain ⟨m, _, h, _⟩ := h
      exact ⟨some m, h, by rintro (h | h) <;> cases h⟩
  | gone =>
      rw [hst] at h
      obtain ⟨pending, h⟩ := h
      exact ⟨pending, h, by rintro (h | h) <;> cases h⟩

/-- Jobs that stay what they are for leave every session where it is. -/
theorem Settles.of_jobs (h : s.Settles process jobs)
    (hjobs : ∀ (k : Nat) job m, jobs[k]? = some job → job.Of process m →
      ∃ job', jobs'[k]? = some job' ∧ job'.Of process m) : s.Settles process jobs' := by
  unfold Settles at h ⊢
  cases hst : s.stage with
  | waiting k =>
      simp only [hst] at h ⊢
      obtain ⟨m, job, hs, hk, hof⟩ := h
      obtain ⟨job', hk', hof'⟩ := hjobs k job m hk hof
      exact ⟨m, job', hs, hk', hof'⟩
  | _ => simpa only [hst] using h

theorem Settles.call {c : Callback} (h : s.Settles process jobs) (hs : s.call c = some s') :
    s'.Settles process jobs := by
  unfold DelegatedSession.call at hs
  split at hs
  · rename_i hidle
    have hdel : s.Delegates process none := by simpa only [Settles, hidle] using h
    cases c with
    | connected => cases hs; exact hdel.forward rfl
    | message m => cases hs; exact hdel.take
    | disconnected => cases hs; exact hdel.forward rfl
  · cases hs

theorem Settles.resume {k : Nat} {job : Job} (h : s.Settles process jobs) (hst : s.stage = .waiting k)
    (hk : jobs[k]? = some job) (hs : s.resume job = some s') : s'.Settles process jobs := by
  obtain ⟨m, job', hdel, hk', hof⟩ : ∃ m job, s.Delegates process (some m) ∧ jobs[k]? = some job ∧
      job.Of process m := by
    simpa only [Settles, hst] using h
  obtain rfl : job = job' := Option.some.inj (hk.symm.trans hk')
  cases job with
  | queued m' => cases hs
  | sent result =>
      cases result with
      | ok m' => cases hs; exact hdel.handOn hof
      | error e => cases hs; exact hdel.report hof
  | cancelled => cases hs; exact hdel.report trivial

end DelegatedSession

/-! ## A step of the handler -/

namespace ThreadPoolHandler

variable {h h' : ThreadPoolHandler W}

/-- Every session that the handler serves is where its callbacks and its job say. -/
def Delegating (process : MessageProcessor W) (h : ThreadPoolHandler W) : Prop :=
  ∀ (i : Nat) s, h.sessions[i]? = some s → s.Settles process h.jobs

theorem onSession_eq_some {i : Nat} {f : DelegatedSession → Option DelegatedSession} :
    h.onSession i f = some h' ↔ ∃ s s', h.sessions[i]? = some s ∧ f s = some s' ∧
      h' = { h with sessions := h.sessions.set i s' } := by
  simp only [onSession, Option.bind_eq_some_iff, Option.map_eq_some_iff]
  constructor
  · rintro ⟨s, hi, s', hf, rfl⟩
    exact ⟨s, s', hi, hf, rfl⟩
  · rintro ⟨s, s', hi, hf, rfl⟩
    exact ⟨s, hi, s', hf, rfl⟩

theorem Delegating.onSession {i : Nat} {f : DelegatedSession → Option DelegatedSession}
    (hd : h.Delegating process) (hs : h.onSession i f = some h')
    (hf : ∀ s s', h.sessions[i]? = some s → s.Settles process h.jobs → f s = some s' →
      s'.Settles process h.jobs) : h'.Delegating process := by
  obtain ⟨s, s', hi, hfs, rfl⟩ := onSession_eq_some.mp hs
  exact forall_getElem?_set hd (hf s s' hi (hd i s hi) hfs)

/-- A job that is set to something that it is for. -/
theorem Delegating.setJob {k : Nat} {m : Message} {job : Job} {world : W} (hd : h.Delegating process)
    (hk : h.jobs[k]? = some (.queued m)) (hof : job.Of process m) :
    ({ h with world, jobs := h.jobs.set k job } : ThreadPoolHandler W).Delegating process := by
  intro i s hi
  refine (hd i s hi).of_jobs fun l job' m' hl hof' => ?_
  by_cases hkl : k = l
  · subst hkl
    obtain rfl : job' = .queued m := Option.some.inj (hl.symm.trans hk)
    obtain rfl : m = m' := hof'
    exact ⟨job, List.getElem?_set_self (List.getElem?_eq_some_iff.mp hk).1, hof⟩
  · exact ⟨job', (List.getElem?_set_ne hkl).trans hl, hof'⟩

theorem Delegating.submit {i : Nat} {refused : Option String} (hd : h.Delegating process)
    (hs : h.submit i refused = some h') : h'.Delegating process := by
  obtain ⟨s, hi, hs⟩ := Option.bind_eq_some_iff.mp hs
  have hsettles := hd i s hi
  cases hst : s.stage with
  | submitting m =>
      have hdel : s.Delegates process (some m) := by
        simpa only [DelegatedSession.Settles, hst] using hsettles
      cases refused with
      | some e =>
          simp only [hst, Option.some.injEq] at hs
          subst hs
          exact forall_getElem?_set hd (hdel.report trivial)
      | none =>
          simp only [hst, Option.some.injEq] at hs
          subst hs
          -- the jobs that the others wait for keep their places
          have hold : ∀ (j : Nat) u, h.sessions[j]? = some u → u.Settles process (h.jobs ++ [.queued m]) := by
            intro j u hu
            refine (hd j u hu).of_jobs fun k job m' hk hof => ⟨job, ?_, hof⟩
            rw [List.getElem?_append_left (List.getElem?_eq_some_iff.mp hk).1]
            exact hk
          exact forall_getElem?_set hold ⟨m, .queued m, hdel, List.getElem?_concat_length, rfl⟩
  | _ => simp only [hst, reduceCtorEq] at hs

theorem Delegating.work {k : Nat} (hd : h.Delegating process) (hs : h.work process k = some h') :
    h'.Delegating process := by
  obtain ⟨job, hk, hs⟩ := Option.bind_eq_some_iff.mp hs
  cases job with
  | queued m =>
      dsimp only at hs
      cases hp : process m h.world with
      | ok m' world =>
          simp only [hp, Option.some.injEq] at hs
          subst hs
          exact hd.setJob hk ⟨h.world, world, hp⟩
      | error e world =>
          simp only [hp, Option.some.injEq] at hs
          subst hs
          exact hd.setJob hk ⟨h.world, world, hp⟩
  | _ => cases hs

theorem Delegating.cancel {k : Nat} (hd : h.Delegating process) (hs : h.cancel k = some h') :
    h'.Delegating process := by
  obtain ⟨job, hk, hs⟩ := Option.bind_eq_some_iff.mp hs
  cases job with
  | queued m => cases hs; exact hd.setJob hk trivial
  | _ => cases hs

theorem Delegating.step {e : DelegationEvent} (hd : h.Delegating process) (hs : h.step process e = some h') :
    h'.Delegating process := by
  cases e with
  | accept => cases hs; exact forall_getElem?_snoc hd DelegatedSession.Delegates.fresh
  | call i c => exact hd.onSession hs fun s s' _ hsettles hc => hsettles.call hc
  | submit i refused => exact hd.submit hs
  | work k => exact hd.work hs
  | cancel k => exact hd.cancel hs
  | resume i =>
      refine hd.onSession hs fun s s' _ hsettles hres => ?_
      cases hst : s.stage with
      | waiting k =>
          simp only [hst, Option.bind_eq_some_iff] at hres
          obtain ⟨job, hk, hres⟩ := hres
          exact hsettles.resume hst hk hres
      | _ => simp only [hst, reduceCtorEq] at hres
  | finish i =>
      refine hd.onSession hs fun s s' _ hsettles hf => ?_
      obtain ⟨hst, hf⟩ := Option.ite_none_right_eq_some.mp hf
      cases hf
      have hdel : s.Delegates process none := by
        simpa only [DelegatedSession.Settles, hst] using hsettles
      exact hdel
  | tearDown i =>
      refine hd.onSession hs fun s s' _ hsettles hf => ?_
      cases hf
      obtain ⟨pending, hdel, _⟩ := hsettles.delegates
      exact ⟨pending, hdel⟩

theorem Delegating.fresh (world : W) : (⟨world, [], []⟩ : ThreadPoolHandler W).Delegating process := by
  intro i s hi
  cases hi

end ThreadPoolHandler

end NetworkSystem
