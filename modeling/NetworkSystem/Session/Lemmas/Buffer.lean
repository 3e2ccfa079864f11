import NetworkSystem.Session.Lemmas.Alone
import NetworkSystem.Session.Lemmas.Closing

/-!
# The buffer of a receive loop

The loop asks for more only with a buffer in which `decode` finds neither a whole frame nor an oversized
header, and such a buffer is shorter than the longest frame. The limit of the guard lies above that.
-/

namespace NetworkSystem

open TaskPool

/-- What the guard of the loop returns. -/
def malformedBuffer : NetworkError :=
  .connection "Malformed message: buffer exceeded maximum size without complete message"

/-- How a receive loop ends. -/
inductive LoopEnding : Except NetworkError Message → Prop
  | message (m : Message) (h : m.size ≤ maxMessageSize) : LoopEnding (.ok m)
  | tooLarge (size : Nat) (h : maxMessageSize < size) :
      LoopEnding (.error (.messageTooLarge size maxMessageSize))
  | assemblyTimeout :
      LoopEnding (.error (.timeout "Message assembly timeout: took too long to receive complete message"))
  | readTimeout : LoopEnding (.error (.timeout "Read timed out"))
  | failed (e : String) : LoopEnding (.error (.connection ("Failed to read: " ++ e)))
  | peerClosed : LoopEnding (.error (.connection "Connection closed by peer"))

/-- The loop asks for more with a short buffer, or it has ended. -/
inductive LoopEnd.Proper : LoopEnd → Prop
  | asks {buf incoming : Bytes} (h : buf.length < 4 + maxMessageSize) : Proper ⟨none, buf, incoming⟩
  | ended {result : Except NetworkError Message} {buf incoming : Bytes} (h : LoopEnding result) :
      Proper ⟨some result, buf, incoming⟩

theorem LoopEnding.ne_malformed : ¬ LoopEnding (.error malformedBuffer) := by
  intro h
  generalize he : (Except.error malformedBuffer : Except NetworkError Message) = result at h
  cases h with
  | failed e =>
      -- the two texts differ in their first letter
      simp only [malformedBuffer, Except.error.injEq, NetworkError.connection.injEq] at he
      have hfirst := congrArg (fun text => text.toList.head?) he
      simp at hfirst
  | peerClosed => exact absurd he (by decide)
  | _ => cases he

variable {assemblyTimeout elapsed : Nat} {reads pre post : List Read} {buf incoming : Bytes} {r : LoopEnd}

theorem LoopEnd.Proper.ending (h : r.Proper) {result : Except NetworkError Message}
    (hr : r.result = some result) : LoopEnding result := by
  cases h with
  | asks => cases hr
  | ended h => cases hr; exact h

/-! ## The loop -/

theorem receiveLoop_proper (assemblyTimeout elapsed : Nat) (reads : List Read) (buf incoming : Bytes) :
    (receiveLoop assemblyTimeout elapsed reads buf incoming).Proper := by
  apply receiveLoop_induction (P := fun _ _ r => r.Proper)
  case htimeout => exact fun _ _ => .ended .assemblyTimeout
  case hlarge => exact fun _ _ hov => .ended (.tooLarge _ hov.2)
  case hframe => exact fun _ _ m _ hs => .ended (.message m (splitFrame_eq_some.mp hs).1)
  case hasks => exact fun _ _ hov hs => .asks (length_lt_of_incomplete hov hs)
  case htimedOut => exact fun _ _ => .ended .readTimeout
  case hfailed => exact fun _ _ e => .ended (.failed e)
  case hclosed => exact fun _ _ => .ended .peerClosed
  case hready => exact fun _ _ _ _ h => h

theorem resumeLoop_proper (assemblyTimeout : Nat) (read : Read) (buf incoming : Bytes) :
    (resumeLoop assemblyTimeout read buf incoming).Proper := by
  unfold resumeLoop
  split
  · exact .ended .readTimeout
  · exact .ended (.failed _)
  · split
    · exact .ended .peerClosed
    · exact receiveLoop_proper _ _ _ _ _

/-- After any of its reads the loop is where the reads so far have brought it. -/
theorem receiveLoop_append (assemblyTimeout elapsed : Nat) (pre post : List Read) (buf incoming : Bytes) :
    receiveLoop assemblyTimeout elapsed (pre ++ post) buf incoming =
      post.foldl (LoopEnd.resume assemblyTimeout) (receiveLoop assemblyTimeout elapsed pre buf incoming) := by
  rw [receiveLoop_resume, List.foldl_append, ← receiveLoop_resume]

theorem receiveLoop_asks_or_ended (assemblyTimeout elapsed : Nat) (pre post : List Read)
    (buf incoming : Bytes) :
    let r := receiveLoop assemblyTimeout elapsed pre buf incoming
    r.result = none ∧ r.buf.length < 4 + maxMessageSize ∨
      ∃ result, r.result = some result ∧ LoopEnding result ∧
        receiveLoop assemblyTimeout elapsed (pre ++ post) buf incoming = r := by
  have happend := receiveLoop_append assemblyTimeout elapsed pre post buf incoming
  have hproper := receiveLoop_proper assemblyTimeout elapsed pre buf incoming
  generalize receiveLoop assemblyTimeout elapsed pre buf incoming = r at happend hproper
  cases hproper with
  | asks h => exact Or.inl ⟨rfl, h⟩
  | ended h => exact Or.inr ⟨_, rfl, h, by rw [happend, resume_of_ended rfl]⟩

theorem Session.receive_ne_malformed (s : Session) (incoming : Bytes) (call : ReceiveCall) :
    (s.receive incoming call).1 ≠ some (.error malformedBuffer) := by
  unfold Session.receive
  split
  · simp [malformedBuffer]
  · split
    · simp [malformedBuffer]
    · split
      · simp [malformedBuffer]
      · split
        · simp
        · have hproper := receiveLoop_proper s.assemblyTimeout call.elapsed call.reads s.readBuffer incoming
          dsimp only
          split
          · simp
          · intro h
            exact LoopEnding.ne_malformed (hproper.ending h)

theorem TcpClient.receive_ne_malformed (c : TcpClient) (incoming : Bytes) (call : ReceiveCall) :
    (c.receive incoming call).1 ≠ some (.error malformedBuffer) := by
  unfold TcpClient.receive
  split
  · simp [malformedBuffer]
  · split
    · simp [malformedBuffer]
    · split
      · simp
      · intro h
        exact LoopEnding.ne_malformed ((receiveLoop_proper _ _ _ _ _).ending h)

/-! ## Calls that share the buffer -/

/-- The buffer is short while a call holds the read half. -/
def SharedSession.Short (s : SharedSession) : Prop :=
  s.readLocked = true → s.session.readBuffer.length < 4 + maxMessageSize

variable {s s' : SharedSession} {stage stage' : ReceiveStage} {re : ReceiveEvent}

namespace SharedSession

theorem Short.afterLoop {finished : Nat} (hr : r.Proper) (h : s.afterLoop finished r = (s', stage')) :
    s'.Short ∧ stage' ≠ .returned (.error malformedBuffer) := by
  cases hr with
  | asks hlen =>
      cases h
      exact ⟨fun _ => hlen, (by intro h; cases h)⟩
  | @ended result _ _ hresult =>
      cases result with
      | ok m =>
          cases h
          exact ⟨(by intro h; cases h), (by intro h; cases h)⟩
      | error e =>
          cases h
          refine ⟨(by intro h; cases h), ?_⟩
          intro h
          cases h
          exact LoopEnding.ne_malformed hresult

theorem Short.receiveStep (hs : s.Short) (h : s.receiveStep stage re = some (s', stage')) :
    s'.Short ∧ stage' ≠ .returned (.error malformedBuffer) := by
  unfold SharedSession.receiveStep at h
  split at h
  · split at h
    · cases h; exact ⟨hs, by decide⟩
    · split at h
      · cases h; exact ⟨hs, by decide⟩
      · cases h; exact ⟨hs, by intro h; cases h⟩
  · split at h
    · cases h
    · cases h; exact ⟨hs, by intro h; cases h⟩
  · cases h; exact ⟨hs, by intro h; cases h⟩
  · split at h
    · cases h
    · split at h
      · cases h; exact ⟨hs, by decide⟩
      · split at h
        · cases h; exact ⟨hs, by intro h; cases h⟩
        · exact Short.afterLoop (receiveLoop_proper _ _ _ _ _) (Option.some.inj h)
  · cases h; exact ⟨hs, by intro h; cases h⟩
  · exact Short.afterLoop (resumeLoop_proper _ _ _ _) (Option.some.inj h)
  · cases h
    exact ⟨(by intro h; cases h), (by intro h; cases h)⟩
  · cases h

end SharedSession

namespace SessionCall

variable {t t' : SessionCall} {e : SessionEvent}

theorem act_short (h : act s t e = some (s', t')) (hs : s.Short) :
    s'.Short ∧ t' ≠ .receive (.returned (.error malformedBuffer)) := by
  cases act_step h with
  | send _ hsend =>
      obtain ⟨now, hsession⟩ := Session.sendStep_session hsend
      refine ⟨fun hl => ?_, by simp⟩
      simp only [SharedSession.session, hsession]
      exact hs hl
  | receive _ =>
      -- the step keeps no trace of the loop that it has run
      obtain ⟨⟨s₁, stage'⟩, hreceive, he⟩ := Option.map_eq_some_iff.mp h
      cases he
      obtain ⟨hshort, hreturned⟩ := hs.receiveStep hreceive
      exact ⟨hshort, fun h => hreturned (SessionCall.receive.inj h)⟩
  | close hclose => cases hclose <;> exact ⟨hs, by simp⟩
  | setInactive => exact ⟨hs, by simp⟩

end SessionCall

/-- Every call that waits for a read does so with a short buffer, and none has returned the error of the
guard. -/
structure ReceivesBounded (p : Pool SharedSession SessionCall) : Prop where
  asking : .receive .reading ∈ p.tasks → p.shared.session.readBuffer.length < 4 + maxMessageSize
  returned : .receive (.returned (.error malformedBuffer)) ∉ p.tasks

structure BufferGuarded (p : Pool SharedSession SessionCall) : Prop where
  guarded : Guarded p
  short : p.shared.Short
  returned : .receive (.returned (.error malformedBuffer)) ∉ p.tasks

variable {p p' : Pool SharedSession SessionCall} {e : TaskPool.Event SessionRequest SessionEvent}

theorem BufferGuarded.new (now readTimeout writeTimeout idleTimeout : Nat) (incoming : Bytes) :
    BufferGuarded (SharedSession.new now readTimeout writeTimeout idleTimeout incoming) where
  guarded := .new _ _ _ _ _
  short := by intro h; cases h
  returned := by intro h; cases h

theorem BufferGuarded.step (h : BufferGuarded p) (hs : sessionCalls.step p e = some p') :
    BufferGuarded p' where
  guarded := h.guarded.step hs
  short := Program.shared_invariant (fun _ _ _ _ _ ha hI => (SessionCall.act_short ha hI).1) hs h.short
  returned := by
    intro hmem
    cases e with
    | spawn k =>
        rw [Program.step_spawn] at hs
        cases hs
        rcases List.mem_append.mp hmem with hmem | hmem
        · exact h.returned hmem
        · cases k <;> cases List.mem_singleton.mp hmem
    | act i e =>
        obtain ⟨t, s', t', ht, ha, rfl⟩ := Program.step_act.mp hs
        rcases List.mem_or_eq_of_mem_set hmem with hmem | rfl
        · exact h.returned hmem
        · exact (SessionCall.act_short ha h.short).2 rfl

theorem BufferGuarded.bounded (h : BufferGuarded p) : ReceivesBounded p where
  asking := by
    intro hmem
    have hle : (1 : Nat) ≤ p.shared.readLocked.toNat := by
      rw [h.guarded.reading]
      exact le_total_of_mem (fun (t : SessionCall) => t.reads.toNat) hmem
    exact h.short (Bool.toNat_eq_one.mp (Nat.le_antisymm (Bool.toNat_le _) hle))
  returned := h.returned

end NetworkSystem
