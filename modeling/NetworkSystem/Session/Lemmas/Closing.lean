import NetworkSystem.Session.Lemmas.Locks

/-!
# A session whose halves are taken

Once a `close` is over, both halves are gone, and no call is left that holds one.
-/

namespace NetworkSystem

open FrameWriter TaskPool Steps

variable {s s' : SharedSession}

/-! ## What is shared -/

/-- The half that is in use under its lock is there. -/
structure HalvesHeld (s : SharedSession) : Prop where
  write : s.io.wire.inFlight.isSome = true → s.session.writeHalf = true ∧ s.writeLocked = false
  read : s.readLocked = true → s.session.readHalf = true

/-- What is gone stays gone. -/
structure HalvesTaken (s s' : SharedSession) : Prop where
  write : s.session.writeHalf = false → s'.session.writeHalf = false
  read : s.session.readHalf = false → s'.session.readHalf = false

theorem HalvesTaken.of_eq (hw : s'.session.writeHalf = s.session.writeHalf)
    (hr : s'.session.readHalf = s.session.readHalf) : HalvesTaken s s' :=
  ⟨hw.trans, hr.trans⟩

section Send

variable {io : SessionWire} {c c' : SendCall} {e : SendEvent}

theorem HalvesHeld.send (h : HalvesHeld s) (hs : Session.sendStep s.io c e = some (io, c'))
    (hfree : ¬ (e = .lock ∧ s.writeLocked = true)) : HalvesHeld { s with io := io } := by
  obtain ⟨now, hsession⟩ := Session.sendStep_session hs
  constructor
  · intro hheld
    have hsession' : io.session.writeHalf = s.session.writeHalf := by rw [hsession]; rfl
    cases hw : s.io.wire.inFlight.isSome with
    | false =>
        obtain ⟨he, hhalf⟩ := Session.sendStep_begins hs hw hheld
        exact ⟨hsession'.trans hhalf, by simpa [he] using hfree⟩
    | true => exact ⟨hsession'.trans (h.write hw).1, (h.write hw).2⟩
  · intro hheld
    have hsession' : io.session.readHalf = s.session.readHalf := by rw [hsession]; rfl
    exact hsession'.trans (h.read hheld)

theorem HalvesTaken.send (hs : Session.sendStep s.io c e = some (io, c')) :
    HalvesTaken s { s with io := io } := by
  obtain ⟨now, hsession⟩ := Session.sendStep_session hs
  exact .of_eq (by simp only [SharedSession.session, hsession]) (by simp only [SharedSession.session, hsession])

end Send

section Receive

variable {stage stage' : ReceiveStage}

theorem HalvesTaken.receive (h : ReceiveStep s stage s' stage') : HalvesTaken s s' := by
  obtain ⟨buf, now, hsession⟩ := h.frame.session
  exact .of_eq (by rw [hsession]) (by rw [hsession])

theorem ReceiveStep.keeps_readHalf (h : ReceiveStep s stage s' stage') (hs : HalvesHeld s)
    (hl : s'.readLocked = true) : s.session.readHalf = true := by
  cases h with
  | lockRead _ hhalf _ => exact hhalf
  | read hloop =>
      cases hloop with
      | wait => exact hs.read hl
      | ends => cases hl
  | dropReading => cases hl
  | _ => exact hs.read hl

theorem HalvesHeld.receive (hs : HalvesHeld s) (h : ReceiveStep s stage s' stage') : HalvesHeld s' := by
  obtain ⟨buf, now, hsession⟩ := h.frame.session
  constructor
  · intro hheld
    rw [h.frame.wire] at hheld
    rw [hsession, h.frame.writeLocked]
    exact hs.write hheld
  · intro hl
    rw [hsession]
    exact h.keeps_readHalf hs hl

end Receive

section Close

variable {stage stage' : CloseStage} {e : CloseEvent}

def CloseStage.tookWrite : CloseStage → Bool
  | .shuttingDown | .lockingRead | .finishing | .returned => true
  | _ => false

def CloseStage.tookRead : CloseStage → Bool
  | .finishing | .returned => true
  | _ => false

structure CloseTook (s : SharedSession) (stage : CloseStage) : Prop where
  write : stage.tookWrite = true → s.session.writeHalf = false
  read : stage.tookRead = true → s.session.readHalf = false

theorem CloseTook.mono (h : CloseTook s stage) (hs : HalvesTaken s s') : CloseTook s' stage :=
  ⟨fun ht => hs.write (h.write ht), fun ht => hs.read (h.read ht)⟩

inductive CloseStep (s : SharedSession) : CloseStage → SharedSession → CloseStage → Prop
  | announce : CloseStep s .entered (s.update { s.session with state := .closing }) .deactivating
  | deactivate : CloseStep s .deactivating (s.update { s.session with active := false }) .lockingWrite
  | takeWrite (hfree : s.writeHeld = false) :
      CloseStep s .lockingWrite
        { s.update { s.session with writeHalf := false } with writeLocked := true } .shuttingDown
  | skipWrite (hgone : s.session.writeHalf = false) : CloseStep s .lockingWrite s .lockingRead
  | dropWrite : CloseStep s .lockingWrite s .dropped
  | shutDown {stage' : CloseStage} (h : stage' = .lockingRead ∨ stage' = .dropped) :
      CloseStep s .shuttingDown { s with writeLocked := false } stage'
  | takeRead (hfree : s.readLocked = false) :
      CloseStep s .lockingRead (s.update { s.session with readHalf := false }) .finishing
  | dropRead : CloseStep s .lockingRead s .dropped
  | finish : CloseStep s .finishing (s.update { s.session with state := .closed }) .returned

theorem SharedSession.closeStep_step (h : s.closeStep stage e = some (s', stage')) :
    CloseStep s stage s' stage' := by
  unfold closeStep at h
  split at h
  · cases h; exact .announce
  · cases h; exact .deactivate
  · split at h
    · cases h
    · split at h
      · rename_i hfree _
        cases h
        exact .takeWrite (by simpa using hfree)
      · rename_i hgone
        cases h
        exact .skipWrite (by simpa using hgone)
  · cases h; exact .dropWrite
  · cases h; exact .shutDown (Or.inl rfl)
  · cases h; exact .shutDown (Or.inr rfl)
  · split at h
    · cases h
    · rename_i hfree
      cases h
      exact .takeRead (by simpa using hfree)
  · cases h; exact .dropRead
  · cases h; exact .finish
  · cases h

theorem CloseStep.wire (h : CloseStep s stage s' stage') : s'.io.wire = s.io.wire := by
  cases h <;> rfl

theorem CloseStep.readLocked (h : CloseStep s stage s' stage') : s'.readLocked = s.readLocked := by
  cases h <;> rfl

theorem HalvesHeld.close (hs : HalvesHeld s) (h : CloseStep s stage s' stage') : HalvesHeld s' := by
  cases h with
  | announce | deactivate | finish => exact ⟨hs.write, hs.read⟩
  | skipWrite | dropWrite | dropRead => exact hs
  | shutDown =>
      refine ⟨?_, hs.read⟩
      intro hheld
      exact ⟨(hs.write hheld).1, rfl⟩
  | takeWrite hfree =>
      refine ⟨?_, hs.read⟩
      intro hheld
      simp only [SharedSession.writeHeld, Bool.or_eq_false_iff] at hfree
      exact absurd (hheld.symm.trans hfree.2) nofun
  | takeRead hfree =>
      refine ⟨hs.write, ?_⟩
      intro hheld
      exact absurd (hheld.symm.trans hfree) nofun

theorem HalvesTaken.close (h : CloseStep s stage s' stage') : HalvesTaken s s' := by
  cases h with
  | takeWrite => exact ⟨fun _ => rfl, id⟩
  | takeRead => exact ⟨id, fun _ => rfl⟩
  | _ => exact ⟨id, id⟩

theorem CloseTook.close (hs : CloseTook s stage) (h : CloseStep s stage s' stage') :
    CloseTook s' stage' := by
  cases h with
  | announce | deactivate | dropWrite | dropRead => exact ⟨nofun, nofun⟩
  | takeWrite => exact ⟨fun _ => rfl, nofun⟩
  | skipWrite hgone => exact ⟨fun _ => hgone, nofun⟩
  | shutDown h =>
      rcases h with rfl | rfl
      · exact ⟨fun _ => hs.write rfl, nofun⟩
      · exact ⟨nofun, nofun⟩
  | takeRead => exact ⟨fun _ => hs.write rfl, fun _ => rfl⟩
  | finish => exact ⟨fun _ => hs.write rfl, fun _ => hs.read rfl⟩

end Close

/-! ## One step of a call -/

namespace SessionCall

variable {t t' : SessionCall} {e : SessionEvent}

inductive Step (s : SharedSession) : SessionCall → SessionEvent → SharedSession → SessionCall → Prop
  | send {c c' : SendCall} {e : SendEvent} {io : SessionWire} (hfree : ¬ (e = .lock ∧ s.writeLocked = true))
      (h : Session.sendStep s.io c e = some (io, c')) :
      Step s (.send c) (.send e) { s with io := io } (.send c')
  | receive {stage stage' : ReceiveStage} {e : ReceiveEvent} {s' : SharedSession}
      (h : ReceiveStep s stage s' stage') : Step s (.receive stage) (.receive e) s' (.receive stage')
  | close {stage stage' : CloseStage} {e : CloseEvent} {s' : SharedSession}
      (h : CloseStep s stage s' stage') : Step s (.close stage) (.close e) s' (.close stage')
  | setInactive :
      Step s (.setInactive false) .setInactive (s.update { s.session with active := false }) (.setInactive true)

theorem act_step (h : act s t e = some (s', t')) : Step s t e s' t' := by
  unfold act at h
  split at h
  · split at h
    · cases h
    · rename_i hfree
      obtain ⟨⟨io, c'⟩, hs, he⟩ := Option.map_eq_some_iff.mp h
      cases he
      exact .send hfree hs
  · obtain ⟨⟨s₁, stage'⟩, hs, he⟩ := Option.map_eq_some_iff.mp h
    cases he
    exact .receive (SharedSession.receiveStep_step hs)
  · obtain ⟨⟨s₁, stage'⟩, hs, he⟩ := Option.map_eq_some_iff.mp h
    cases he
    exact .close (SharedSession.closeStep_step hs)
  · cases h
    exact .setInactive
  · cases h

theorem Step.halvesHeld (h : Step s t e s' t') (hs : HalvesHeld s) : HalvesHeld s' := by
  cases h with
  | send hfree h => exact hs.send h hfree
  | receive h => exact hs.receive h
  | close h => exact hs.close h
  | setInactive => exact ⟨hs.write, hs.read⟩

theorem Step.halvesTaken (h : Step s t e s' t') : HalvesTaken s s' := by
  cases h with
  | send _ h => exact .send h
  | receive h => exact .receive h
  | close h => exact .close h
  | setInactive => exact ⟨id, id⟩

/-- The call has its frame in flight. -/
def writes : SessionCall → Bool
  | .send c => c.stage.holds
  | _ => false

def reads : SessionCall → Bool
  | .receive stage => stage.reads
  | _ => false

def Took (s : SharedSession) : SessionCall → Prop
  | .close stage => CloseTook s stage
  | _ => True

theorem Step.took (h : Step s t e s' t') (ht : t.Took s) : t'.Took s' := by
  cases h with
  | close h => exact CloseTook.close ht h
  | _ => trivial

theorem Took.mono (h : t.Took s) (hs : HalvesTaken s s') : t.Took s' := by
  cases t with
  | close stage => exact CloseTook.mono h hs
  | _ => trivial

theorem Step.writing (h : Step s t e s' t') :
    s'.io.wire.inFlight.isSome.toNat + t.writes.toNat =
      s.io.wire.inFlight.isSome.toNat + t'.writes.toNat := by
  cases h with
  | send _ h =>
      obtain ⟨ev, hstep, -⟩ := Session.sendStep_wire h
      exact hstep.inFlight
  | receive h => rw [h.frame.wire]; rfl
  | close h => rw [h.wire]; rfl
  | setInactive => rfl

theorem Step.reading (h : Step s t e s' t') (hle : t.reads.toNat ≤ s.readLocked.toNat) :
    s'.readLocked.toNat + t.reads.toNat = s.readLocked.toNat + t'.reads.toNat := by
  cases h with
  | send => rfl
  | receive h => exact h.reading hle
  | close h => rw [h.readLocked]; rfl
  | setInactive => rfl

/-- A call completes with `Ok` only by a half that it holds or finds. -/
theorem Step.completes (h : Step s t e s' t') (ht : t'.completedOk = true) :
    t.writes = true ∨ t.reads = true ∨ s.session.readHalf = true := by
  cases h with
  | send _ h =>
      obtain ⟨ev, hstep, -⟩ := Session.sendStep_wire h
      exact Or.inl (hstep.completes (of_decide_eq_true ht))
  | @receive stage stage' e s' h =>
      cases stage' with
      | returned result =>
          cases result with
          | ok m => exact Or.inr h.completes
          | error err => cases ht
      | _ => cases ht
  | close | setInactive => cases ht

end SessionCall

/-! ## The pool of calls -/

structure Guarded (p : Pool SharedSession SessionCall) : Prop where
  held : HalvesHeld p.shared
  writing : p.shared.io.wire.inFlight.isSome.toNat = p.total fun t => t.writes.toNat
  reading : p.shared.readLocked.toNat = p.total fun t => t.reads.toNat
  took : ∀ t ∈ p.tasks, t.Took p.shared

variable {p p' : Pool SharedSession SessionCall} {e : TaskPool.Event SessionRequest SessionEvent}

theorem Guarded.new (now readTimeout writeTimeout idleTimeout : Nat) (incoming : Bytes) :
    Guarded (SharedSession.new now readTimeout writeTimeout idleTimeout incoming) where
  held := ⟨nofun, nofun⟩
  writing := rfl
  reading := rfl
  took := nofun

theorem Guarded.step (h : Guarded p) (hs : sessionCalls.step p e = some p') : Guarded p' where
  held := by
    refine Program.shared_invariant (I := HalvesHeld) ?_ hs h.held
    intro s t e s' t' ha hI
    exact (SessionCall.act_step ha).halvesHeld hI
  writing := by
    refine Program.accounts (f := fun s => s.io.wire.inFlight.isSome.toNat) ?_ ?_ hs h.writing
    · intro s t e s' t' _ ha
      exact (SessionCall.act_step ha).writing
    · intro k
      cases k <;> rfl
  reading := by
    refine Program.accounts (f := fun s => s.readLocked.toNat) ?_ ?_ hs h.reading
    · intro s t e s' t' hle ha
      exact (SessionCall.act_step ha).reading hle
    · intro k
      cases k <;> rfl
  took := by
    refine Program.forall_tasks (I := fun s t => SessionCall.Took s t) ?_ ?_ ?_ hs h.took
    · intro s t e s' t' ha ht
      exact (SessionCall.act_step ha).took ht
    · intro s t e s' t' u ha _ hu
      exact hu.mono (SessionCall.act_step ha).halvesTaken
    · intro s k
      cases k with
      | close => exact ⟨nofun, nofun⟩
      | _ => trivial

/-- Both halves are gone. -/
structure Shut (p : Pool SharedSession SessionCall) : Prop where
  guarded : Guarded p
  write : p.shared.session.writeHalf = false
  read : p.shared.session.readHalf = false

theorem Guarded.shut (h : Guarded p) (hc : SessionCall.close .returned ∈ p.tasks) : Shut p := by
  have htook : CloseTook p.shared .returned := h.took _ hc
  exact ⟨h, htook.write rfl, htook.read rfl⟩

theorem Shut.step (h : Shut p) (hs : sessionCalls.step p e = some p') : Shut p' := by
  refine ⟨h.guarded.step hs, ?_, ?_⟩
  · refine Program.shared_invariant (I := fun s => s.session.writeHalf = false) ?_ hs h.write
    intro s t e s' t' ha hI
    exact (SessionCall.act_step ha).halvesTaken.write hI
  · refine Program.shared_invariant (I := fun s => s.session.readHalf = false) ?_ hs h.read
    intro s t e s' t' ha hI
    exact (SessionCall.act_step ha).halvesTaken.read hI

/-- No call holds a half that is gone. -/
theorem Shut.idle (h : Shut p) {t : SessionCall} (ht : t ∈ p.tasks) : t.writes = false ∧ t.reads = false := by
  have hwrites : t.writes.toNat ≤ p.shared.io.wire.inFlight.isSome.toNat := by
    rw [h.guarded.writing]
    exact le_total_of_mem (fun (t : SessionCall) => t.writes.toNat) ht
  have hreads : t.reads.toNat ≤ p.shared.readLocked.toNat := by
    rw [h.guarded.reading]
    exact le_total_of_mem (fun (t : SessionCall) => t.reads.toNat) ht
  have hfree : p.shared.io.wire.inFlight.isSome = false := by
    cases hheld : p.shared.io.wire.inFlight.isSome with
    | false => rfl
    | true => exact absurd ((h.guarded.held.write hheld).1.symm.trans h.write) nofun
  have hunread : p.shared.readLocked = false := by
    cases hheld : p.shared.readLocked with
    | false => rfl
    | true => exact absurd ((h.guarded.held.read hheld).symm.trans h.read) nofun
  rw [hfree] at hwrites
  rw [hunread] at hreads
  exact ⟨by simpa using hwrites, by simpa using hreads⟩

theorem Shut.no_completion (h : Shut p) (hs : sessionCalls.step p e = some p') {j : Nat} {t : SessionCall}
    (hj : p'.tasks[j]? = some t) (ht : t.completedOk = true) : p.tasks[j]? = some t := by
  cases e with
  | spawn k =>
      rw [Program.step_spawn] at hs
      cases hs
      rcases getElem?_snoc_cases hj with hj | ⟨-, rfl⟩
      · exact hj
      · cases k <;> cases ht
  | act i e =>
      obtain ⟨u, s', u', hu, ha, rfl⟩ := Program.step_act.mp hs
      rcases getElem?_set_cases hj with ⟨rfl, rfl⟩ | ⟨-, hj⟩
      · obtain ⟨hwrites, hreads⟩ := h.idle (List.mem_of_getElem? hu)
        rcases (SessionCall.act_step ha).completes ht with hw | hr | hhalf
        · exact absurd (hw.symm.trans hwrites) nofun
        · exact absurd (hr.symm.trans hreads) nofun
        · exact absurd (hhalf.symm.trans h.read) nofun
      · exact hj

end NetworkSystem
