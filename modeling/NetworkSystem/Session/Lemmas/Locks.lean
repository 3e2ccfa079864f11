import NetworkSystem.Session.SessionCalls
import NetworkSystem.Wire.Lemmas.OneCall

/-!
# What the locks of a session guarantee

The half that a call uses under its lock is there as long as it holds the lock, and `close` takes each half
under the lock of it. A call that completes with `Ok` held the lock when it did, so that none does once
both halves are taken.
-/

namespace NetworkSystem

open FrameWriter TaskPool Steps

/-! ## `send` -/

/-- A `send` returns `Ok` only while it holds the lock. -/
theorem WireStep.completes {w w' : Wire} {c c' : SendCall} {ev : Option (FrameWriter.Event Message)}
    (h : WireStep w c ev w' c') (hc' : c'.stage = .returned (.ok ())) : c.stage.holds = true := by
  cases h with
  | front _ _ hs => exact absurd (hc' ▸ hs : SendStage.sent (.returned (.ok ())) = false) nofun
  | stay hc => exact hc
  | begin _ hh => exact absurd (hc' ▸ hh : SendStage.holds (.returned (.ok ())) = true) nofun
  | put hc => exact hc
  | finish hc => exact hc
  | abandon hc => exact hc

variable {s s' : SharedSession} {io io' : SessionWire} {c c' : SendCall} {e : SendEvent}

/-- `send` changes nothing of the session but its last activity. -/
theorem Session.sendStep_session (h : Session.sendStep io c e = some (io', c')) :
    ∃ now, io'.session = { io.session with lastActivity := now } := by
  unfold Session.sendStep at h
  cases hst : c.stage with
  | entered =>
      simp only [hst] at h
      cases e with
      | check now =>
          simp only at h
          split at h
          · cases h; exact ⟨_, rfl⟩
          · split at h
            · cases h; exact ⟨_, rfl⟩
            · split at h <;> cases h <;> exact ⟨_, rfl⟩
      | _ => cases h
  | locking data =>
      simp only [hst] at h
      cases e with
      | lock =>
          simp only at h
          split at h
          · cases h
          · split at h
            · cases h; exact ⟨_, rfl⟩
            · obtain ⟨r, -, he⟩ := Option.map_eq_some_iff.mp h
              cases he
              exact ⟨_, rfl⟩
      | drop => cases h; exact ⟨_, rfl⟩
      | _ => cases h
  | writing =>
      simp only [hst] at h
      obtain ⟨r, -, he⟩ := Option.map_eq_some_iff.mp h
      cases e <;> cases he <;> exact ⟨_, rfl⟩
  | _ => simp only [hst] at h; cases h

/-- A `send` takes the lock only while the write half is there. -/
theorem Session.sendStep_begins (h : Session.sendStep io c e = some (io', c'))
    (hfree : io.wire.inFlight.isSome = false) (hheld : io'.wire.inFlight.isSome = true) :
    e = .lock ∧ io.session.writeHalf = true := by
  obtain ⟨ev, hstep, -⟩ := Session.sendStep_wire h
  have hcount := hstep.inFlight
  rw [hfree, hheld] at hcount
  unfold Session.sendStep at h
  cases hst : c.stage with
  | entered =>
      simp only [hst] at h
      cases e with
      | check now =>
          simp only at h
          split at h
          · cases h; simp [hfree] at hheld
          · split at h
            · cases h; simp [hfree] at hheld
            · split at h <;> cases h <;> simp [hfree] at hheld
      | _ => cases h
  | locking data =>
      simp only [hst] at h
      cases e with
      | lock =>
          simp only [hfree, Bool.false_eq_true, ↓reduceIte] at h
          split at h
          · cases h; simp [hfree] at hheld
          · rename_i hhalf
            exact ⟨rfl, by simpa using hhalf⟩
      | drop => cases h; simp [hfree] at hheld
      | _ => cases h
  | writing =>
      have hholds : c.stage.holds = true := by rw [hst]; rfl
      rw [hholds] at hcount
      cases hc' : c'.stage.holds <;> simp [hc'] at hcount
  | _ => simp only [hst] at h; cases h

/-! ## `receive` -/

/-- What the loop of `receive` does before it waits for a read or returns. -/
inductive LoopStep (s : SharedSession) : SharedSession → ReceiveStage → Prop
  | wait (buf incoming : Bytes) :
      LoopStep s { s.update { s.session with readBuffer := buf } with incoming := incoming } .reading
  | ends (buf incoming : Bytes) (now : Nat) (result : Except NetworkError Message) :
      LoopStep s
        { s.update { s.session with readBuffer := buf, lastActivity := now } with
          incoming := incoming, bufferLocked := false, readLocked := false } (.returned result)

inductive ReceiveStep (s : SharedSession) : ReceiveStage → SharedSession → ReceiveStage → Prop
  | refuse (err : NetworkError) : ReceiveStep s .entered s (.returned (.error err))
  | pass : ReceiveStep s .entered s .lockingBuffer
  | lockBuffer : ReceiveStep s .lockingBuffer { s with bufferLocked := true } .lockingRead
  | refuseLocked (err : NetworkError) :
      ReceiveStep s .lockingRead { s with bufferLocked := false } (.returned (.error err))
  | lockRead {s' : SharedSession} {stage' : ReceiveStage} (hfree : s.readLocked = false)
      (hhalf : s.session.readHalf = true) (h : LoopStep { s with readLocked := true } s' stage') :
      ReceiveStep s .lockingRead s' stage'
  | read {s' : SharedSession} {stage' : ReceiveStage} (h : LoopStep s s' stage') :
      ReceiveStep s .reading s' stage'
  | panic : ReceiveStep s .lockingRead { s with bufferLocked := false } .panicked
  | dropEarly : ReceiveStep s .lockingBuffer s .dropped
  | dropLocked : ReceiveStep s .lockingRead { s with bufferLocked := false } .dropped
  | dropReading : ReceiveStep s .reading { s with bufferLocked := false, readLocked := false } .dropped

variable {stage stage' : ReceiveStage} {re : ReceiveEvent}

namespace SharedSession

theorem afterLoop_step {finished : Nat} {r : LoopEnd} (h : s.afterLoop finished r = (s', stage')) :
    LoopStep s s' stage' := by
  unfold afterLoop at h
  split at h
  · cases h; exact .wait _ _
  · cases h; exact .ends _ _ _ _
  · cases h; exact .ends _ _ _ _

theorem receiveStep_step (h : s.receiveStep stage re = some (s', stage')) :
    ReceiveStep s stage s' stage' := by
  unfold receiveStep at h
  split at h
  · split at h
    · cases h; exact .refuse _
    · split at h
      · cases h; exact .refuse _
      · cases h; exact .pass
  · split at h
    · cases h
    · cases h; exact .lockBuffer
  · cases h; exact .dropEarly
  · split at h
    · cases h
    · split at h
      · cases h; exact .refuseLocked _
      · split at h
        · cases h; exact .panic
        · rename_i hfree hhalf _
          exact .lockRead (by simpa using hfree) (by simpa using hhalf) (afterLoop_step (Option.some.inj h))
  · cases h; exact .dropLocked
  · exact .read (afterLoop_step (Option.some.inj h))
  · cases h; exact .dropReading
  · cases h

end SharedSession

/-- `receive` changes nothing of the session but its buffer and its last activity. -/
structure ReceiveFrame (s s' : SharedSession) : Prop where
  wire : s'.io.wire = s.io.wire
  writeLocked : s'.writeLocked = s.writeLocked
  session : ∃ buf now, s'.session = { s.session with readBuffer := buf, lastActivity := now }

theorem LoopStep.frame (h : LoopStep s s' stage') : ReceiveFrame s s' := by
  cases h <;> exact ⟨rfl, rfl, _, _, rfl⟩

theorem ReceiveStep.frame (h : ReceiveStep s stage s' stage') : ReceiveFrame s s' := by
  cases h with
  | lockRead _ _ h =>
      obtain ⟨hw, hl, hs⟩ := h.frame
      exact ⟨hw, hl, hs⟩
  | read h => exact h.frame
  | _ => exact ⟨rfl, rfl, _, _, rfl⟩

def ReceiveStage.reads : ReceiveStage → Bool
  | .reading => true
  | _ => false

theorem LoopStep.reading (h : LoopStep s s' stage') (hs : s.readLocked = true) :
    s'.readLocked = stage'.reads := by
  cases h with
  | wait => exact hs
  | ends => rfl

/-- The read half is locked for the call that reads. -/
theorem ReceiveStep.reading (h : ReceiveStep s stage s' stage')
    (hle : stage.reads.toNat ≤ s.readLocked.toNat) :
    s'.readLocked.toNat + stage.reads.toNat = s.readLocked.toNat + stage'.reads.toNat := by
  cases h with
  | lockRead hfree _ h => simp [h.reading rfl, hfree, ReceiveStage.reads]
  | read h =>
      have hs : s.readLocked = true := by
        cases hl : s.readLocked
        · simp [hl, ReceiveStage.reads] at hle
        · rfl
      rw [h.reading hs, hs, Nat.add_comm]
      rfl
  | dropReading =>
      have hs : s.readLocked = true := by
        cases hl : s.readLocked
        · simp [hl, ReceiveStage.reads] at hle
        · rfl
      simp [hs, ReceiveStage.reads]
  | _ => rfl

/-- A `receive` returns a message only while it holds the lock of the read half, or when it takes it. -/
theorem ReceiveStep.completes {m : Message} (h : ReceiveStep s stage s' (.returned (.ok m))) :
    stage.reads = true ∨ s.session.readHalf = true := by
  cases h with
  | lockRead _ hhalf _ => exact Or.inr hhalf
  | read => exact Or.inl rfl

end NetworkSystem
