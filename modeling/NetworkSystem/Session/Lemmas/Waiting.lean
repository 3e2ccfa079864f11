import NetworkSystem.Lib.Quiescence
import NetworkSystem.Session.Lemmas.Closing
import NetworkSystem.Wire.Lemmas.Receive

/-!
# Where the calls on a session wait

Whoever holds a lock of a session waits for nothing but the network, with a timeout, or for the lock of the read
half; and whoever holds that one waits for no lock. So no call waits for ever. What is left to do is counted in
steps: a `send` puts out its frame, and a `receive` takes bytes off the stream.
-/

namespace NetworkSystem

open FrameWriter TaskPool Steps

/-- The event is not the drop of a call. -/
def SessionEvent.goesOn : SessionEvent → Prop
  | .send .drop | .receive .drop | .close .drop => False
  | _ => True

/-! ## Steps that are left -/

/-- The bytes of the frame in flight that are not out. -/
def unsent (w : Wire) : Nat := (w.inFlight.map fun f => f.rest.length).getD 0

section Frames

variable {w w' : Wire}

theorem unsent_begin {m : Message} {data : Bytes} (h : w.begin m data = some w') :
    unsent w' = unsent w + data.length := by
  obtain ⟨hfree, rfl⟩ := Writer.begin_eq_some.mp h
  simp [unsent, hfree]

theorem unsent_put {k : Nat} (h : w.put k = some w') : unsent w' < unsent w := by
  obtain ⟨f, hf, hk, rfl⟩ := Writer.put_eq_some.mp h
  simp [unsent, hf]
  omega

theorem unsent_finish (h : w.finish = some w') : unsent w' = 0 := by
  obtain ⟨f, hf, hrest, rfl⟩ := Writer.finish_eq_some.mp h
  rfl

theorem unsent_abandon (h : w.abandon = some w') : unsent w' = 0 := by
  obtain ⟨f, hf, hrest, rfl⟩ := Writer.abandon_eq_some.mp h
  rfl

end Frames

def SendCall.stepsLeft (c : SendCall) : Nat :=
  match c.stage with
  | .entered => c.message.size + 7
  | .locking data => data.length + 2
  | .waiting | .trying | .writing => 1
  | .returned _ | .dropped => 0

def ReceiveStage.stepsLeft : ReceiveStage → Nat
  | .entered => 4
  | .lockingBuffer => 3
  | .lockingRead => 2
  | .reading => 1
  | .returned _ | .dropped | .panicked => 0

def CloseStage.stepsLeft : CloseStage → Nat
  | .entered => 6
  | .deactivating => 5
  | .lockingWrite => 4
  | .shuttingDown => 3
  | .lockingRead => 2
  | .finishing => 1
  | .returned | .dropped => 0

def SessionCall.stepsLeft : SessionCall → Nat
  | .send call => call.stepsLeft
  | .receive stage => stage.stepsLeft
  | .close stage => stage.stepsLeft
  | .setInactive done => (!done).toNat

/-- The bytes that are on their way out or in. -/
def SharedSession.underWay (s : SharedSession) : Nat := unsent s.io.wire + s.incoming.length

theorem writeAll_stepsLeft {texts : WriteTexts} {w w' : Wire} {c c' : SendCall} {e : SendEvent}
    (hc : c.stepsLeft = 1) (h : writeAll texts w c e = some (w', c')) :
    unsent w' + c'.stepsLeft < unsent w + c.stepsLeft := by
  unfold writeAll at h
  split at h
  · obtain ⟨w₁, hput, he⟩ := Option.map_eq_some_iff.mp h
    cases he
    exact Nat.add_lt_add_right (unsent_put hput) _
  · obtain ⟨w₁, hfinish, he⟩ := Option.map_eq_some_iff.mp h
    cases he
    rw [unsent_finish hfinish, hc]
    exact Nat.succ_pos _
  iterate 3
    obtain ⟨w₁, habandon, he⟩ := Option.map_eq_some_iff.mp h
    cases he
    rw [unsent_abandon habandon, hc]
    exact Nat.succ_pos _
  · cases h

theorem Session.sendStep_stepsLeft {io io' : SessionWire} {c c' : SendCall} {e : SendEvent} (he : e ≠ .drop)
    (h : Session.sendStep io c e = some (io', c')) :
    unsent io'.wire + c'.stepsLeft < unsent io.wire + c.stepsLeft := by
  obtain ⟨kind, m, stage⟩ := c
  cases stage with
  | entered =>
      cases e with
      | check now =>
          simp only [Session.sendStep] at h
          split at h
          · cases h
            exact Nat.add_lt_add_left (Nat.succ_pos _) _
          · split at h
            · cases h
              exact Nat.add_lt_add_left (Nat.succ_pos _) _
            · split at h
              · cases h
                exact Nat.add_lt_add_left (Nat.succ_pos _) _
              · rename_i data hencode
                cases h
                simp only [Message.encode] at hencode
                split at hencode
                · cases hencode
                · cases hencode
                  have hlength := m.frame_length
                  show unsent io.wire + (m.frame.length + 2) < unsent io.wire + (m.size + 7)
                  omega
      | _ => cases h
  | locking data =>
      cases e with
      | lock =>
          simp only [Session.sendStep] at h
          split at h
          · cases h
          · split at h
            · cases h
              exact Nat.add_lt_add_left (Nat.succ_pos _) _
            · obtain ⟨⟨w, c₁⟩, hbegin, hc⟩ := Option.map_eq_some_iff.mp h
              obtain ⟨w₁, hw₁, heq⟩ := Option.map_eq_some_iff.mp hbegin
              cases heq
              cases hc
              show unsent w + 1 < unsent io.wire + (data.length + 2)
              rw [unsent_begin hw₁]
              omega
      | drop => exact absurd rfl he
      | _ => cases h
  | writing =>
      obtain ⟨⟨w, c₁⟩, hwrite, hc⟩ := Option.map_eq_some_iff.mp h
      have hlt := writeAll_stepsLeft rfl hwrite
      cases e <;> cases hc <;> exact hlt
  | _ => cases h

/-- A loop that waits for another read has taken something off the stream. -/
theorem resumeLoop_shorter (assemblyTimeout : Nat) (read : Read) (buf incoming : Bytes) :
    (resumeLoop assemblyTimeout read buf incoming).incoming.length ≤ incoming.length ∧
      ((resumeLoop assemblyTimeout read buf incoming).result = none →
        (resumeLoop assemblyTimeout read buf incoming).incoming.length < incoming.length) := by
  obtain ⟨outcome, elapsed⟩ := read
  cases outcome with
  | timedOut => exact ⟨le_rfl, nofun⟩
  | failed err => exact ⟨le_rfl, nofun⟩
  | ready n =>
      simp only [resumeLoop]
      split
      · exact ⟨le_rfl, nofun⟩
      · rename_i htake
        rw [receiveLoop_incoming, List.length_drop]
        have hpos : 0 < (incoming.take n).length := List.length_pos_iff.mpr htake
        rw [List.length_take] at hpos
        refine ⟨by omega, fun _ => by omega⟩

namespace SharedSession

variable {s s' : SharedSession} {stage stage' : ReceiveStage}

theorem afterLoop_stepsLeft {finished : Nat} {r : LoopEnd} (h : s.afterLoop finished r = (s', stage')) :
    s'.io.wire = s.io.wire ∧ s'.incoming = r.incoming ∧ stage'.stepsLeft ≤ 1 ∧
      (r.result ≠ none → stage'.stepsLeft = 0) := by
  unfold afterLoop at h
  split at h
  · rename_i hnone
    cases h
    exact ⟨rfl, rfl, le_rfl, fun hne => absurd hnone hne⟩
  · cases h
    exact ⟨rfl, rfl, Nat.zero_le _, fun _ => rfl⟩
  · cases h
    exact ⟨rfl, rfl, Nat.zero_le _, fun _ => rfl⟩

theorem receiveStep_stepsLeft {e : ReceiveEvent} (he : e ≠ .drop) (h : s.receiveStep stage e = some (s', stage')) :
    s'.underWay + stage'.stepsLeft < s.underWay + stage.stepsLeft := by
  unfold receiveStep at h
  split at h
  · split at h
    · cases h
      exact Nat.add_lt_add_left (Nat.succ_pos _) _
    · split at h <;> cases h
      · exact Nat.add_lt_add_left (Nat.succ_pos _) _
      · exact Nat.lt_succ_self _
  · split at h <;> cases h
    exact Nat.lt_succ_self _
  · exact absurd rfl he
  · split at h
    · cases h
    · split at h
      · cases h
        exact Nat.add_lt_add_left (Nat.succ_pos _) _
      · split at h
        · cases h
          exact Nat.add_lt_add_left (Nat.succ_pos _) _
        · obtain ⟨hwire, hincoming, hle, _⟩ := afterLoop_stepsLeft (Option.some.inj h)
          rw [receiveLoop_incoming] at hincoming
          show unsent s'.io.wire + s'.incoming.length + _ < s.underWay + 2
          rw [hwire, hincoming]
          exact Nat.add_lt_add_left (Nat.lt_succ_of_le hle) _
  · exact absurd rfl he
  · rename_i read finished
    obtain ⟨hwire, hincoming, hle, hends⟩ := afterLoop_stepsLeft (Option.some.inj h)
    obtain ⟨hshorter, hwaits⟩ := resumeLoop_shorter s.session.assemblyTimeout read s.session.readBuffer s.incoming
    show unsent s'.io.wire + s'.incoming.length + _ < unsent s.io.wire + s.incoming.length + 1
    rw [hwire, hincoming]
    by_cases hresult : (resumeLoop s.session.assemblyTimeout read s.session.readBuffer s.incoming).result = none
    · have := hwaits hresult
      omega
    · rw [hends hresult]
      omega
  · exact absurd rfl he
  · cases h

theorem closeStep_stepsLeft {stage stage' : CloseStage} {e : CloseEvent} (he : e ≠ .drop)
    (h : s.closeStep stage e = some (s', stage')) : s'.underWay + stage'.stepsLeft < s.underWay + stage.stepsLeft := by
  unfold closeStep at h
  split at h
  · cases h; exact Nat.lt_succ_self _
  · cases h; exact Nat.lt_succ_self _
  · split at h
    · cases h
    · split at h <;> cases h
      · exact Nat.lt_succ_self _
      · exact Nat.add_lt_add_left (by decide) _
  · exact absurd rfl he
  · cases h; exact Nat.lt_succ_self _
  · exact absurd rfl he
  · split at h <;> cases h
    exact Nat.lt_succ_self _
  · exact absurd rfl he
  · cases h; exact Nat.lt_succ_self _
  · cases h

end SharedSession

theorem SessionCall.act_stepsLeft (s : SharedSession) (t : SessionCall) (e : SessionEvent) (s' : SharedSession)
    (t' : SessionCall) (he : e.goesOn) (h : act s t e = some (s', t')) :
    s'.underWay + t'.stepsLeft < s.underWay + t.stepsLeft := by
  unfold act at h
  split at h
  · rename_i c e
    split at h
    · cases h
    · obtain ⟨⟨io, c'⟩, hs, heq⟩ := Option.map_eq_some_iff.mp h
      cases heq
      have hlt := Session.sendStep_stepsLeft (by rintro rfl; exact he) hs
      simp only [SharedSession.underWay, SessionCall.stepsLeft]
      omega
  · obtain ⟨⟨s₁, stage'⟩, hs, heq⟩ := Option.map_eq_some_iff.mp h
    cases heq
    exact SharedSession.receiveStep_stepsLeft (by rintro rfl; exact he) hs
  · obtain ⟨⟨s₁, stage'⟩, hs, heq⟩ := Option.map_eq_some_iff.mp h
    cases heq
    exact SharedSession.closeStep_stepsLeft (by rintro rfl; exact he) hs
  · cases h
    exact Nat.lt_succ_self _
  · cases h

/-! ## Locks -/

def SendStage.ofSession : SendStage → Bool
  | .waiting | .trying => false
  | _ => true

namespace SessionCall

/-- The call has the lock of the read buffer. -/
def locksBuffer : SessionCall → Bool
  | .receive .lockingRead | .receive .reading => true
  | _ => false

/-- The call is a `close` that has the lock of the write half. -/
def shutsDown : SessionCall → Bool
  | .close .shuttingDown => true
  | _ => false

/-- The call waits in no place that only a client's `send` has. -/
def ofSession : SessionCall → Bool
  | .send call => call.stage.ofSession
  | _ => true

def ended : SessionCall → Bool
  | .send ⟨_, _, .returned _⟩ | .send ⟨_, _, .dropped⟩ | .receive (.returned _) | .receive .dropped
  | .receive .panicked | .close .returned | .close .dropped | .setInactive true => true
  | _ => false

end SessionCall

theorem writeAll_ofSession {texts : WriteTexts} {w w' : Wire} {c c' : SendCall} {e : SendEvent}
    (hc : c.stage.ofSession = true) (h : writeAll texts w c e = some (w', c')) : c'.stage.ofSession = true := by
  unfold writeAll at h
  split at h
  · obtain ⟨_, _, he⟩ := Option.map_eq_some_iff.mp h
    cases he
    exact hc
  iterate 4
    obtain ⟨_, _, he⟩ := Option.map_eq_some_iff.mp h
    cases he
    rfl
  cases h

theorem Session.sendStep_ofSession {io io' : SessionWire} {c c' : SendCall} {e : SendEvent}
    (h : Session.sendStep io c e = some (io', c')) : c'.stage.ofSession = true := by
  obtain ⟨kind, m, stage⟩ := c
  cases stage with
  | entered =>
      cases e with
      | check now =>
          simp only [Session.sendStep] at h
          split at h
          · cases h; rfl
          · split at h
            · cases h; rfl
            · split at h <;> cases h <;> rfl
      | _ => cases h
  | locking data =>
      cases e with
      | lock =>
          simp only [Session.sendStep] at h
          split at h
          · cases h
          · split at h
            · cases h; rfl
            · obtain ⟨_, hbegin, hc⟩ := Option.map_eq_some_iff.mp h
              obtain ⟨_, _, heq⟩ := Option.map_eq_some_iff.mp hbegin
              cases heq
              cases hc
              rfl
      | drop => cases h; rfl
      | _ => cases h
  | writing =>
      obtain ⟨_, hwrite, hc⟩ := Option.map_eq_some_iff.mp h
      have hof := writeAll_ofSession rfl hwrite
      cases e <;> cases hc <;> exact hof
  | _ => cases h

theorem LoopStep.locksBuffer {s s' : SharedSession} {stage' : ReceiveStage} (h : LoopStep s s' stage')
    (hs : s.bufferLocked = true) : s'.bufferLocked = (SessionCall.receive stage').locksBuffer := by
  cases h with
  | wait => exact hs
  | ends => rfl

theorem SharedSession.receiveStep_locksBuffer {s s' : SharedSession} {stage stage' : ReceiveStage} {e : ReceiveEvent}
    (hlock : (SessionCall.receive stage).locksBuffer = true → s.bufferLocked = true)
    (h : s.receiveStep stage e = some (s', stage')) :
    s'.bufferLocked.toNat + (SessionCall.receive stage).locksBuffer.toNat =
      s.bufferLocked.toNat + (SessionCall.receive stage').locksBuffer.toNat := by
  by_cases hbuffer : stage = .lockingBuffer
  · subst hbuffer
    cases e with
    | lockBuffer =>
        simp only [receiveStep] at h
        split at h <;> cases h
        simp [SessionCall.locksBuffer, *]
    | drop => cases h; rfl
    | _ => cases h
  · have hstep := receiveStep_step h
    cases hstep with
    | lockBuffer | dropEarly => exact absurd rfl hbuffer
    | refuse | pass => rfl
    | refuseLocked | panic | dropLocked | dropReading => simp [SessionCall.locksBuffer, hlock rfl]
    | lockRead _ _ hloop | read hloop =>
        rw [hloop.locksBuffer (hlock rfl), hlock rfl, Nat.add_comm]
        rfl

namespace SessionCall

variable {s s' : SharedSession} {t t' : SessionCall} {e : SessionEvent}

theorem act_locksBuffer (hlock : t.locksBuffer = true → s.bufferLocked = true) (h : act s t e = some (s', t')) :
    s'.bufferLocked.toNat + t.locksBuffer.toNat = s.bufferLocked.toNat + t'.locksBuffer.toNat := by
  unfold act at h
  split at h
  · split at h
    · cases h
    · obtain ⟨_, _, heq⟩ := Option.map_eq_some_iff.mp h
      cases heq
      rfl
  · obtain ⟨⟨s₁, stage'⟩, hs, heq⟩ := Option.map_eq_some_iff.mp h
    cases heq
    exact SharedSession.receiveStep_locksBuffer hlock hs
  · obtain ⟨⟨s₁, stage'⟩, hs, heq⟩ := Option.map_eq_some_iff.mp h
    cases heq
    have hstep := SharedSession.closeStep_step hs
    cases hstep <;> rfl
  · cases h
    rfl
  · cases h

theorem act_shutsDown (hlock : t.shutsDown = true → s.writeLocked = true) (h : act s t e = some (s', t')) :
    s'.writeLocked.toNat + t.shutsDown.toNat = s.writeLocked.toNat + t'.shutsDown.toNat := by
  have hstep := act_step h
  cases hstep with
  | send => rfl
  | receive hreceive => rw [hreceive.frame.writeLocked]; rfl
  | setInactive => rfl
  | close hclose =>
      cases hclose with
      | takeWrite hfree =>
          simp only [SharedSession.writeHeld, Bool.or_eq_false_iff] at hfree
          simp [shutsDown, hfree.1]
      | shutDown hends =>
          have hlocked : s.writeLocked = true := hlock rfl
          rcases hends with rfl | rfl <;> simp [shutsDown, hlocked]
      | _ => rfl

theorem act_ofSession (ht : t.ofSession = true) (h : act s t e = some (s', t')) : t'.ofSession = true := by
  have hstep := act_step h
  cases hstep with
  | send _ hsend => exact Session.sendStep_ofSession hsend
  | receive | close | setInactive => rfl

end SessionCall

/-- Each lock is held by one call of the session. -/
structure Locked (p : Pool SharedSession SessionCall) : Prop where
  guarded : Guarded p
  buffer : p.shared.bufferLocked.toNat = p.total fun t => t.locksBuffer.toNat
  write : p.shared.writeLocked.toNat = p.total fun t => t.shutsDown.toNat
  ofSession : ∀ t ∈ p.tasks, t.ofSession = true

variable {p p' : Pool SharedSession SessionCall} {e : TaskPool.Event SessionRequest SessionEvent}

theorem Locked.new (now readTimeout writeTimeout idleTimeout : Nat) (incoming : Bytes) :
    Locked (SharedSession.new now readTimeout writeTimeout idleTimeout incoming) where
  guarded := .new _ _ _ _ _
  buffer := rfl
  write := rfl
  ofSession := nofun

theorem Locked.step (h : Locked p) (hs : sessionCalls.step p e = some p') : Locked p' where
  guarded := h.guarded.step hs
  buffer := by
    refine Program.accounts (f := fun s => s.bufferLocked.toNat) ?_ (fun k => by cases k <;> rfl) hs h.buffer
    intro s t e s' t' hle ha
    refine SessionCall.act_locksBuffer (fun ht => ?_) ha
    rw [ht] at hle
    exact Bool.toNat_eq_one.mp (le_antisymm s.bufferLocked.toNat_le hle)
  write := by
    refine Program.accounts (f := fun s => s.writeLocked.toNat) ?_ (fun k => by cases k <;> rfl) hs h.write
    intro s t e s' t' hle ha
    refine SessionCall.act_shutsDown (fun ht => ?_) ha
    rw [ht] at hle
    exact Bool.toNat_eq_one.mp (le_antisymm s.writeLocked.toNat_le hle)
  ofSession := by
    refine Program.forall_tasks (I := fun _ t => SessionCall.ofSession t = true) ?_ ?_ ?_ hs h.ofSession
    · intro s t e s' t' ha ht
      exact SessionCall.act_ofSession ht ha
    · intro _ _ _ _ _ _ _ _ hu
      exact hu
    · intro _ k
      cases k <;> rfl

/-! ## Calls that can go on -/

namespace SharedSession

variable {s : SharedSession}

theorem receiveStep_check (now : Nat) : s.receiveStep .entered (.check now) ≠ none := by
  simp only [receiveStep]
  split
  · exact Option.some_ne_none _
  · split <;> exact Option.some_ne_none _

theorem receiveStep_lockRead (hfree : s.readLocked = false) (elapsed finished : Nat) :
    s.receiveStep .lockingRead (.lockRead elapsed finished) ≠ none := by
  simp only [receiveStep, hfree, Bool.false_eq_true, if_false]
  split
  · exact Option.some_ne_none _
  · split <;> exact Option.some_ne_none _

theorem closeStep_lockWrite (hfree : s.writeHeld = false) : s.closeStep .lockingWrite .next ≠ none := by
  simp only [closeStep, hfree, Bool.false_eq_true, if_false]
  split <;> exact Option.some_ne_none _

end SharedSession

section Send

variable {io : SessionWire} {kind : SendKind} {m : Message}

theorem Session.sendStep_check (now : Nat) : Session.sendStep io ⟨kind, m, .entered⟩ (.check now) ≠ none := by
  simp only [Session.sendStep]
  split
  · exact Option.some_ne_none _
  · split
    · exact Option.some_ne_none _
    · split <;> exact Option.some_ne_none _

theorem Session.sendStep_lock {data : Bytes} (hfree : io.wire.inFlight = none) :
    Session.sendStep io ⟨kind, m, .locking data⟩ .lock ≠ none := by
  simp only [Session.sendStep, hfree, Option.isSome_none, Bool.false_eq_true, if_false]
  split
  · exact Option.some_ne_none _
  · simp [lockAndBegin, Writer.begin, hfree]

/-- A write ends, at the latest with its timeout. -/
theorem Session.sendStep_ends (hheld : io.wire.inFlight.isSome = true) :
    Session.sendStep io ⟨kind, m, .writing⟩ (.done 0) ≠ none ∨ Session.sendStep io ⟨kind, m, .writing⟩ .timedOut ≠ none := by
  obtain ⟨f, hf⟩ := Option.isSome_iff_exists.mp hheld
  by_cases hrest : f.rest = []
  · left
    simp [Session.sendStep, writeAll, Writer.finish, hf, hrest]
  · right
    simp [Session.sendStep, writeAll, Writer.abandon, hf, hrest]

end Send

/-! ## Calls that wait -/

/-- No call of the session can take a step other than being dropped. -/
def NoneGoesOn (p : Pool SharedSession SessionCall) : Prop :=
  ∀ t ∈ p.tasks, ∀ e : SessionEvent, e.goesOn → SessionCall.act p.shared t e = none

section Quiet

theorem NoneGoesOn.receive (h : NoneGoesOn p) {stage : ReceiveStage} (ht : .receive stage ∈ p.tasks)
    (e : ReceiveEvent) (he : SessionEvent.goesOn (.receive e)) : p.shared.receiveStep stage e = none :=
  Option.map_eq_none_iff.mp (h _ ht (.receive e) he)

theorem NoneGoesOn.close (h : NoneGoesOn p) {stage : CloseStage} (ht : .close stage ∈ p.tasks) :
    p.shared.closeStep stage .next = none :=
  Option.map_eq_none_iff.mp (h _ ht (.close .next) trivial)

theorem NoneGoesOn.send (h : NoneGoesOn p) {c : SendCall} (ht : .send c ∈ p.tasks) (e : SendEvent)
    (he : SessionEvent.goesOn (.send e)) (hfree : p.shared.writeLocked = false ∨ e ≠ .lock) :
    Session.sendStep p.shared.io c e = none := by
  have hnone := h _ ht (.send e) he
  have hpass : ¬ (e = .lock ∧ p.shared.writeLocked = true) := by
    rintro ⟨hlock, hheld⟩
    rcases hfree with hfree | hne
    · rw [hheld] at hfree
      cases hfree
    · exact hne hlock
  simp only [SessionCall.act, if_neg hpass] at hnone
  exact Option.map_eq_none_iff.mp hnone

variable (hquiet : NoneGoesOn p)

include hquiet

theorem NoneGoesOn.reads {t : SessionCall} (ht : t ∈ p.tasks) : t.reads = false := by
  cases t with
  | receive stage =>
      cases stage with
      | reading => cases hquiet.receive ht (.read ⟨.timedOut, 0⟩ 0) trivial
      | _ => rfl
  | _ => rfl

theorem NoneGoesOn.shutsDown {t : SessionCall} (ht : t ∈ p.tasks) : t.shutsDown = false := by
  cases t with
  | close stage =>
      cases stage with
      | shuttingDown => cases hquiet.close ht
      | _ => rfl
  | _ => rfl

variable (h : Locked p)

include h

theorem NoneGoesOn.writes {t : SessionCall} (ht : t ∈ p.tasks) : t.writes = false := by
  cases t with
  | send call =>
      obtain ⟨kind, m, stage⟩ := call
      cases stage with
      | writing =>
          have hle := le_total_of_mem (fun t : SessionCall => t.writes.toNat) ht
          rw [← h.guarded.writing] at hle
          rcases Session.sendStep_ends (Bool.toNat_eq_one.mp (le_antisymm (Bool.toNat_le _) hle)) with hends | hends
          · exact absurd (hquiet.send ht (.done 0) trivial (.inr nofun)) hends
          · exact absurd (hquiet.send ht .timedOut trivial (.inr nofun)) hends
      | waiting | trying => cases h.ofSession _ ht
      | _ => rfl
  | _ => rfl

theorem NoneGoesOn.readLocked : p.shared.readLocked = false :=
  Bool.toNat_eq_zero.mp (h.guarded.reading.trans (Pool.total_eq_zero fun _ ht => hquiet.reads ht))

theorem NoneGoesOn.inFlight : p.shared.io.wire.inFlight = none := by
  have hzero := h.guarded.writing.trans (Pool.total_eq_zero fun _ ht => hquiet.writes h ht)
  simpa using hzero

theorem NoneGoesOn.writeLocked : p.shared.writeLocked = false :=
  Bool.toNat_eq_zero.mp (h.write.trans (Pool.total_eq_zero fun _ ht => hquiet.shutsDown ht))

/-- The buffer is locked by calls that read or wait for the lock of the read half, and that one is free. -/
theorem NoneGoesOn.locksBuffer {t : SessionCall} (ht : t ∈ p.tasks) : t.locksBuffer = false := by
  cases t with
  | receive stage =>
      cases stage with
      | lockingRead =>
          exact absurd (hquiet.receive ht (.lockRead 0 0) trivial)
            (SharedSession.receiveStep_lockRead (hquiet.readLocked h) 0 0)
      | reading => cases hquiet.reads ht
      | _ => rfl
  | _ => rfl

theorem NoneGoesOn.bufferLocked : p.shared.bufferLocked = false :=
  Bool.toNat_eq_zero.mp (h.buffer.trans (Pool.total_eq_zero fun _ ht => hquiet.locksBuffer h ht))

theorem NoneGoesOn.ended {t : SessionCall} (ht : t ∈ p.tasks) : t.ended = true := by
  have hinFlight := hquiet.inFlight h
  have hwriteLocked := hquiet.writeLocked h
  cases t with
  | send call =>
      obtain ⟨kind, m, stage⟩ := call
      cases stage with
      | entered => exact absurd (hquiet.send ht (.check 0) trivial (.inr nofun)) (Session.sendStep_check 0)
      | locking data => exact absurd (hquiet.send ht .lock trivial (.inl hwriteLocked)) (Session.sendStep_lock hinFlight)
      | writing | waiting | trying => cases hquiet.writes h ht
      | returned _ | dropped => rfl
  | receive stage =>
      cases stage with
      | entered => exact absurd (hquiet.receive ht (.check 0) trivial) (SharedSession.receiveStep_check 0)
      | lockingBuffer =>
          have hlock := hquiet.receive ht .lockBuffer trivial
          simp [SharedSession.receiveStep, hquiet.bufferLocked h] at hlock
      | lockingRead => cases hquiet.locksBuffer h ht
      | reading => cases hquiet.reads ht
      | returned _ | dropped | panicked => rfl
  | close stage =>
      have hnext := hquiet.close ht
      cases stage with
      | entered | deactivating | shuttingDown | finishing => cases hnext
      | lockingWrite =>
          have hfree : p.shared.writeHeld = false := by simp [SharedSession.writeHeld, hwriteLocked, hinFlight]
          exact absurd hnext (SharedSession.closeStep_lockWrite hfree)
      | lockingRead => simp [SharedSession.closeStep, hquiet.readLocked h] at hnext
      | returned | dropped => rfl
  | setInactive done =>
      cases done with
      | true => rfl
      | false => cases hquiet _ ht .setInactive trivial

end Quiet

end NetworkSystem
