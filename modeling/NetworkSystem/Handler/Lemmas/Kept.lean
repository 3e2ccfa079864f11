import NetworkSystem.Handler.Lemmas.Coupling
import NetworkSystem.Processor.Lemmas.Processors

/-!
# Runs that lose no job

Where the pool takes every job and runs it, the only errors are those of the processor. A processor that undoes
what the messages have gone through makes none.
-/

namespace NetworkSystem

open TaskPool Steps

variable {W : Type} {process : MessageProcessor W}

/-- The error is the processor's. -/
def DelegationError.isProcess : DelegationError → Bool
  | .process _ => true
  | _ => false

namespace ThreadPoolHandler

variable {h h' : ThreadPoolHandler W}

/-- No job was lost. -/
structure Kept (h : ThreadPoolHandler W) : Prop where
  jobs : ∀ (k : Nat) job, h.jobs[k]? = some job → job ≠ .cancelled
  errors : ∀ (i : Nat) s, h.sessions[i]? = some s → ∀ e ∈ s.errors, e.isProcess = true

theorem Kept.onSession {i : Nat} {f : DelegatedSession → Option DelegatedSession} (hk : h.Kept)
    (hs : h.onSession i f = some h')
    (hf : ∀ s s', f s = some s' → ∀ e ∈ s'.errors, e ∈ s.errors ∨ e.isProcess = true) : h'.Kept := by
  obtain ⟨s, s', hi, hfs, rfl⟩ := onSession_eq_some.mp hs
  refine ⟨hk.jobs, forall_getElem?_set hk.errors fun e he => ?_⟩
  rcases hf s s' hfs e he with he | he
  · exact hk.errors i s hi e he
  · exact he

theorem Kept.step {e : DelegationEvent} (hk : h.Kept) (he : e.keepsJob = true)
    (hs : h.step process e = some h') : h'.Kept := by
  cases e with
  | accept => cases hs; exact ⟨hk.jobs, forall_getElem?_snoc hk.errors (fun e he => by cases he)⟩
  | call i c =>
      refine hk.onSession hs fun s s' hc e he => Or.inl ?_
      unfold DelegatedSession.call at hc
      split at hc
      · cases c <;> cases hc <;> exact he
      · cases hc
  | submit i refused =>
      cases refused with
      | some e => cases he
      | none =>
          obtain ⟨s, hi, hs⟩ := Option.bind_eq_some_iff.mp hs
          cases hst : s.stage with
          | submitting m =>
              simp only [hst, Option.some.injEq] at hs
              subst hs
              refine ⟨forall_getElem?_snoc hk.jobs (fun h => by cases h), ?_⟩
              exact forall_getElem?_set hk.errors (hk.errors i s hi)
          | _ => simp only [hst, reduceCtorEq] at hs
  | work k =>
      obtain ⟨job, hjob, hs⟩ := Option.bind_eq_some_iff.mp hs
      cases job with
      | queued m =>
          dsimp only at hs
          split at hs
          · cases hs; exact ⟨forall_getElem?_set hk.jobs (fun h => by cases h), hk.errors⟩
          · cases hs; exact ⟨forall_getElem?_set hk.jobs (fun h => by cases h), hk.errors⟩
      | _ => cases hs
  | cancel k => cases he
  | resume i =>
      refine hk.onSession hs fun s s' hres e he => ?_
      cases hst : s.stage with
      | waiting k =>
          simp only [hst, Option.bind_eq_some_iff] at hres
          obtain ⟨job, hjob, hres⟩ := hres
          cases job with
          | queued m => cases hres
          | sent result =>
              cases result with
              | ok m => cases hres; exact Or.inl he
              | error e' =>
                  cases hres
                  rcases List.mem_append.mp he with he | he
                  · exact Or.inl he
                  · rw [List.mem_singleton.mp he]; exact Or.inr rfl
          | cancelled => exact absurd rfl (hk.jobs k _ hjob)
      | _ => simp only [hst, reduceCtorEq] at hres
  | finish i =>
      refine hk.onSession hs fun s s' hf e he => Or.inl ?_
      obtain ⟨_, hf⟩ := Option.ite_none_right_eq_some.mp hf
      cases hf
      exact he
  | tearDown i =>
      refine hk.onSession hs fun s s' hf e he => Or.inl ?_
      cases hf
      exact he

theorem Kept.fresh (world : W) : (⟨world, [], []⟩ : ThreadPoolHandler W).Kept where
  jobs := fun k job h => by cases h
  errors := fun i s h => by cases h

end ThreadPoolHandler

theorem DelegationEvent.keepsJob_of_not_own {de : DelegationEvent} (h : de.isOwn = false) : de.keepsJob = true := by
  cases de with
  | accept | call | tearDown => rfl
  | _ => cases h

/-! ## Messages that the processor restores -/

section Restores

variable {flate2 : Flate2} {stages : List Stage}

/-- The peer has sent a message through the stages. -/
def Encoded (flate2 : Flate2) (stages : List Stage) : Callback → Callback → Prop
  | .message m, .message m' =>
      (ProcessorPipeline.of (stages.map (Stage.process flate2))).process m () = .ok m' ()
  | .connected, .connected | .disconnected, .disconnected => True
  | _, _ => False

/-- The processor that undoes the stages. -/
def unstage (flate2 : Flate2) (stages : List Stage) : MessageProcessor Unit :=
  (ProcessorPipeline.of (stages.map (Stage.inverse flate2)).reverse).process

theorem unstage_encoded (hflate2 : ∀ stage ∈ stages, stage.Lossless flate2) {m m' : Message}
    (h : Encoded flate2 stages (.message m) (.message m')) : unstage flate2 stages m' () = .ok m () := by
  have hmirrored := stages_mirrored hflate2 m ()
  unfold Mirrored at hmirrored
  have hencoded : (ProcessorPipeline.of (stages.map (Stage.process flate2))).process m () = .ok m' () := h
  simp only [bind, EStateM.bind, hencoded] at hmirrored
  exact hmirrored

/-- What was encoded has one fate, unless its job is lost. -/
theorem Encoded.fate (hflate2 : ∀ stage ∈ stages, stage.Lossless flate2) {c c' : Callback} {d : Delegation}
    (h : Encoded flate2 stages c c') (hd : Delegation.Of (unstage flate2 stages) c' d)
    (hkept : ∀ e, d = .error e → e.isProcess = true) : d = .inner c := by
  cases c' with
  | connected =>
      cases c with
      | connected => cases d with
        | inner c => cases hd; rfl
        | error e => cases hd
      | _ => cases h
  | disconnected =>
      cases c with
      | disconnected => cases d with
        | inner c => cases hd; rfl
        | error e => cases hd
      | _ => cases h
  | message m' =>
      cases c with
      | message m =>
          have hrestored := unstage_encoded hflate2 h
          cases d with
          | inner c =>
              cases c with
              | message m₁ =>
                  obtain ⟨w, w', hp⟩ := hd
                  cases hrestored.symm.trans hp
                  rfl
              | connected | disconnected => cases hd
          | error e =>
              cases e with
              | process e =>
                  obtain ⟨w, w', hp⟩ := hd
                  cases hrestored.symm.trans hp
              | _ => cases hkept _ rfl
      | _ => cases h

theorem Encoded.fates (hflate2 : ∀ stage ∈ stages, stage.Lossless flate2) {sent settled : List Callback}
    {fates : List Delegation} (h : List.Forall₂ (Encoded flate2 stages) sent settled)
    (hfates : List.Forall₂ (Delegation.Of (unstage flate2 stages)) settled fates)
    (hkept : ∀ e, .error e ∈ fates → e.isProcess = true) : fates = sent.map .inner := by
  induction h generalizing fates with
  | nil => cases hfates; rfl
  | cons hc _ ih =>
      cases hfates with
      | cons hd hrest =>
          rw [hc.fate hflate2 hd fun e he => hkept e (he ▸ List.mem_cons_self),
            ih hrest fun e he => hkept e (List.mem_cons_of_mem _ he)]
          rfl

/-- The inner handler sees what was sent, but for a message on its way. -/
theorem Encoded.restored (hflate2 : ∀ stage ∈ stages, stage.Lossless flate2) {s : DelegatedSession}
    {sent : List Callback} {pending : Option Message} (h : s.Delegates (unstage flate2 stages) pending)
    (hkept : ∀ e ∈ s.errors, e.isProcess = true) (hsent : List.Forall₂ (Encoded flate2 stages) sent s.received) :
    ∃ rest, sent = s.inner ++ rest ∧ rest.length = pending.toList.length ∧ s.errors = [] := by
  obtain ⟨settled, fates, hreceived, hfates, hinner, herrors⟩ := h
  rw [hreceived] at hsent
  have hfirst := List.forall₂_take_append _ _ _ hsent
  have hlast := List.forall₂_drop_append _ _ _ hsent
  have hkept' : ∀ e, Delegation.error e ∈ fates → e.isProcess = true := by
    intro e he
    refine hkept e ?_
    rw [herrors]
    exact List.mem_filterMap.mpr ⟨_, he, rfl⟩
  have hall := Encoded.fates hflate2 hfirst hfates hkept'
  have hseen : ∀ l : List Callback, (l.map Delegation.inner).filterMap Delegation.seen = l := by
    intro l
    rw [List.filterMap_map]
    exact List.filterMap_some
  have hreported : ∀ l : List Callback, (l.map Delegation.inner).filterMap Delegation.reported = [] := by
    intro l
    rw [List.filterMap_map]
    exact List.filterMap_eq_nil_iff.mpr fun _ _ => rfl
  refine ⟨sent.drop settled.length, ?_, ?_, ?_⟩
  · rw [hinner, hall, hseen, List.take_append_drop]
  · rw [hlast.length_eq, Option.toList_map, List.length_map]
  · rw [herrors, hall, hreported]

end Restores

end NetworkSystem
