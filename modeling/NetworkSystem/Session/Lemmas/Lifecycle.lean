import NetworkSystem.Session.Lemmas.Closing

/-!
# How the state of a session moves

Only `close` writes the state: `Closing` when it begins and `Closed` when it ends, whatever the state is then.
-/

namespace NetworkSystem

open TaskPool Steps

def SessionState.rank : SessionState → Nat
  | .active => 0
  | .closing => 1
  | .closed => 2

/-- The state does not go back in the event. -/
def StateForward (p : Pool SharedSession SessionCall) (e : TaskPool.Event SessionRequest SessionEvent) : Prop :=
  ∀ p' ∈ sessionCalls.step p e, p.shared.session.state.rank ≤ p'.shared.session.state.rank

/-- When a `close` begins none is over. -/
def BeginsInTime (p : Pool SharedSession SessionCall) : TaskPool.Event SessionRequest SessionEvent → Prop
  | .act i (.close .next) => p.tasks[i]? = some (.close .entered) → .close .returned ∉ p.tasks
  | _ => True

instance (p : Pool SharedSession SessionCall) (e : TaskPool.Event SessionRequest SessionEvent) :
    Decidable (StateForward p e) :=
  inferInstanceAs (Decidable (∀ p' ∈ sessionCalls.step p e, _ ≤ _))

instance (p : Pool SharedSession SessionCall) :
    (e : TaskPool.Event SessionRequest SessionEvent) → Decidable (BeginsInTime p e)
  | .act i (.close .next) =>
      inferInstanceAs (Decidable (p.tasks[i]? = some (.close .entered) → .close .returned ∉ p.tasks))
  | .spawn _ | .act _ (.send _) | .act _ (.receive _) | .act _ (.close .drop) | .act _ .setInactive => isTrue trivial

/-! ## One step -/

section

variable {s s' : SharedSession} {t t' : SessionCall} {e : SessionEvent}

namespace SessionCall

theorem Step.state (h : Step s t e s' t') :
    s'.session.state = s.session.state ∧ t' ≠ .close .returned ∨
    t = .close .entered ∧ t' = .close .deactivating ∧ s'.session.state = .closing ∨
    t' = .close .returned ∧ s'.session.state = .closed := by
  cases h with
  | send _ h =>
      obtain ⟨now, hsession⟩ := Session.sendStep_session h
      exact Or.inl ⟨by simp only [SharedSession.session, hsession], by simp⟩
  | receive h =>
      obtain ⟨buf, now, hsession⟩ := h.frame.session
      exact Or.inl ⟨by rw [hsession], by simp⟩
  | close h =>
      cases h with
      | announce => exact Or.inr (Or.inl ⟨rfl, rfl, rfl⟩)
      | finish => exact Or.inr (Or.inr ⟨rfl, rfl⟩)
      | shutDown h => rcases h with rfl | rfl <;> exact Or.inl ⟨rfl, by simp⟩
      | _ => exact Or.inl ⟨rfl, by simp⟩
  | setInactive => exact Or.inl ⟨rfl, by simp⟩

theorem Step.not_returned (h : Step s t e s' t') : t ≠ .close .returned := by
  rintro rfl
  cases h with
  | close h => cases h

theorem act_entered {r : SharedSession × SessionCall} (h : act s (.close .entered) e = some r) :
    e = .close .next := by
  cases e with
  | close e =>
      cases e with
      | next => rfl
      | drop => cases h
  | _ => cases h

end SessionCall

end

/-! ## Runs -/

variable {p p' : Pool SharedSession SessionCall} {e : TaskPool.Event SessionRequest SessionEvent}

/-- The session is closed exactly when some `close` is over. -/
structure StateTold (p : Pool SharedSession SessionCall) : Prop where
  closed_iff : p.shared.session.state = .closed ↔ .close .returned ∈ p.tasks

theorem StateTold.new (now readTimeout writeTimeout idleTimeout : Nat) (incoming : Bytes) :
    StateTold (SharedSession.new now readTimeout writeTimeout idleTimeout incoming) :=
  ⟨⟨nofun, nofun⟩⟩

theorem StateTold.forward_iff (h : StateTold p) : StateForward p e ↔ BeginsInTime p e := by
  constructor
  · intro hforward
    unfold BeginsInTime
    split
    · rename_i i
      intro hi hover
      have hstep : sessionCalls.step p (.act i (.close .next)) =
          some ⟨p.shared.update { p.shared.session with state := .closing },
            p.tasks.set i (.close .deactivating)⟩ :=
        Program.step_act.mpr ⟨_, _, _, hi, rfl, rfl⟩
      have hrank := hforward _ hstep
      rw [h.closed_iff.mpr hover] at hrank
      have hback : SessionState.closed.rank ≤ SessionState.closing.rank := hrank
      exact absurd hback (by decide)
    · trivial
  · intro hbegins p' hs
    cases e with
    | spawn k =>
        cases hs
        exact le_refl _
    | act i e =>
        obtain ⟨t, s', t', hi, ha, rfl⟩ := Program.step_act.mp hs
        rcases (SessionCall.act_step ha).state with ⟨hsame, -⟩ | ⟨rfl, -, hclosing⟩ | ⟨-, hclosed⟩
        · exact (congrArg SessionState.rank hsame).ge
        · obtain rfl := SessionCall.act_entered ha
          have hover := hbegins hi
          rw [← h.closed_iff] at hover
          simp only [hclosing]
          cases hstate : p.shared.session.state with
          | active | closing => decide
          | closed => exact absurd hstate hover
        · simp only [hclosed]
          cases p.shared.session.state <;> decide

theorem StateTold.step (h : StateTold p) (hbegins : BeginsInTime p e)
    (hs : sessionCalls.step p e = some p') : StateTold p' := by
  cases e with
  | spawn k =>
      cases hs
      have hstart : SessionCall.close .returned ≠ sessionCalls.start k := by cases k <;> nofun
      constructor
      simp only [List.mem_append, List.mem_singleton, hstart, or_false]
      exact h.closed_iff
  | act i e =>
      obtain ⟨t, s', t', hi, ha, rfl⟩ := Program.step_act.mp hs
      have hstep := SessionCall.act_step ha
      have hkeep : SessionCall.close .returned ∈ p.tasks → SessionCall.close .returned ∈ p.tasks.set i t' :=
        fun hover => mem_set_of_ne hi hover hstep.not_returned.symm
      constructor
      rcases hstep.state with ⟨hsame, ht'⟩ | ⟨rfl, rfl, hclosing⟩ | ⟨rfl, hclosed⟩
      · simp only [hsame, h.closed_iff]
        exact ⟨hkeep, fun hover => mem_of_mem_set hover ht'.symm⟩
      · obtain rfl := SessionCall.act_entered ha
        simp only [hclosing]
        refine ⟨nofun, ?_⟩
        intro hover
        exact absurd (mem_of_mem_set hover nofun) (hbegins hi)
      · simp only [hclosed, true_iff]
        obtain ⟨hlt, -⟩ := List.getElem?_eq_some_iff.mp hi
        exact List.mem_of_getElem? (List.getElem?_set_self hlt)

end NetworkSystem
