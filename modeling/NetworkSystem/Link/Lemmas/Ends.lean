import NetworkSystem.Lib.Duplex
import NetworkSystem.Link.ClientCalls
import NetworkSystem.Link.Serving
import NetworkSystem.Session.Lemmas.Closing
import NetworkSystem.Wire.Lemmas.Receive

/-!
# The two ends of a connection

What a call puts on the connection stays there, and what it reads off it is accounted for: a session has returned it
as messages or keeps it in its buffer, a client has taken it.
-/

namespace NetworkSystem

open FrameWriter TaskPool

/-! ## Writing -/

theorem WireStep.written {w w' : Wire} {c c' : SendCall} {ev : Option (FrameWriter.Event Message)}
    (h : WireStep w c ev w' c') : w.written <+: w'.written := by
  cases h with
  | front | stay => exact List.prefix_rfl
  | begin _ _ h => obtain ⟨_, rfl⟩ := Writer.begin_eq_some.mp h; exact List.prefix_rfl
  | put _ _ h => obtain ⟨f, _, _, rfl⟩ := Writer.put_eq_some.mp h; exact List.prefix_append _ _
  | finish _ h => obtain ⟨f, _, _, rfl⟩ := Writer.finish_eq_some.mp h; exact List.prefix_rfl
  | abandon _ _ _ _ h => obtain ⟨f, _, _, rfl⟩ := Writer.abandon_eq_some.mp h; exact List.prefix_rfl

theorem StepsWire.written {w w' : Wire} {c c' : SendCall} {e : SendEvent} (h : StepsWire w c e w' c') :
    w.written <+: w'.written := by
  obtain ⟨ev, hstep, _⟩ := h
  exact hstep.written

/-! ## Reading -/

section Read

variable (assemblyTimeout : Nat) (read : Read) (buf incoming : Bytes)

theorem resumeLoop_incoming :
    read.takes incoming ++ (resumeLoop assemblyTimeout read buf incoming).incoming = incoming := by
  obtain ⟨outcome, elapsed⟩ := read
  cases outcome with
  | timedOut => rfl
  | failed err => rfl
  | ready n =>
      simp only [Read.takes, resumeLoop]
      split
      · rename_i hn
        rw [hn]; rfl
      · rw [receiveLoop_incoming, List.take_append_drop]

/-- The loop goes on with what the read has put into the buffer. -/
theorem resumeLoop_conserves :
    buf ++ incoming = encodeAll (returnedBy (resumeLoop assemblyTimeout read buf incoming).result) ++
        ((resumeLoop assemblyTimeout read buf incoming).buf ++
          (resumeLoop assemblyTimeout read buf incoming).incoming) ∧
      ∀ m ∈ returnedBy (resumeLoop assemblyTimeout read buf incoming).result, messageCode.Valid m := by
  obtain ⟨outcome, elapsed⟩ := read
  cases outcome with
  | timedOut => simp [resumeLoop, returnedBy]
  | failed err => simp [resumeLoop, returnedBy]
  | ready n =>
      simp only [resumeLoop]
      split
      · simp [returnedBy]
      · have hloop := receiveLoop_conserves assemblyTimeout elapsed [] (buf ++ incoming.take n) (incoming.drop n)
        rwa [List.append_assoc, List.take_append_drop] at hloop

end Read

/-! ## The client -/

section Client

variable {s s' : SharedClient} {c c' : StreamCall} {e : StreamEvent}

/-- What has arrived at the client: what it has taken and what it has not read. -/
def SharedClient.arrived (s : SharedClient) : Bytes := s.taken ++ s.incoming

theorem SharedClient.afterLoop_io (s : SharedClient) (r : LoopEnd) :
    (s.afterLoop r).1.io = s.io ∧ (s.afterLoop r).1.taken = s.taken ∧ (s.afterLoop r).1.incoming = r.incoming := by
  unfold afterLoop
  cases r.result <;> exact ⟨rfl, rfl, rfl⟩

theorem SharedClient.receiveStep_io {stage stage' : ClientReceive} {e : ClientReceiveEvent}
    (h : s.receiveStep stage e = some (s', stage')) : s'.io = s.io ∧ s'.arrived = s.arrived := by
  unfold receiveStep at h
  split at h
  · split at h <;> cases h <;> exact ⟨rfl, rfl⟩
  · split at h
    · cases h
    · split at h
      · cases h; exact ⟨rfl, rfl⟩
      · split at h
        · cases h; exact ⟨rfl, rfl⟩
        · obtain rfl : (s.afterLoop _).1 = s' := congrArg Prod.fst (Option.some.inj h)
          obtain ⟨hio, htaken, hincoming⟩ := s.afterLoop_io
            (receiveLoop s.client.assemblyTimeout _ [] [] s.incoming)
          refine ⟨hio, ?_⟩
          rw [arrived, htaken, hincoming, receiveLoop_incoming, arrived]
  · cases h; exact ⟨rfl, rfl⟩
  · rename_i buf read
    obtain rfl : (SharedClient.afterLoop _ _).1 = s' := congrArg Prod.fst (Option.some.inj h)
    obtain ⟨hio, htaken, hincoming⟩ := SharedClient.afterLoop_io
      { s with taken := s.taken ++ read.takes s.incoming }
      (resumeLoop s.client.assemblyTimeout read buf s.incoming)
    refine ⟨hio, ?_⟩
    rw [arrived, htaken, hincoming, List.append_assoc, resumeLoop_incoming, arrived]
  · cases h; exact ⟨rfl, rfl⟩
  · cases h

/-- A step of a call is one of a send or one of a `receive`. -/
theorem StreamCall.act_cases (h : c.act s e = some (s', c')) :
    (∃ call call' e' io, c = .send call ∧ c' = .send call' ∧ e = .send e' ∧ s' = { s with io := io } ∧
        TcpClient.sendStep s.io call e' = some (io, call')) ∨
      ∃ stage stage' e', c = .receive stage ∧ c' = .receive stage' ∧ e = .receive e' ∧
        s.receiveStep stage e' = some (s', stage') := by
  unfold act at h
  split at h
  · split at h
    · cases h
    · obtain ⟨⟨io, call'⟩, hs, he⟩ := Option.map_eq_some_iff.mp h
      cases he
      exact Or.inl ⟨_, _, _, _, rfl, rfl, rfl, rfl, hs⟩
  · obtain ⟨⟨s₁, stage'⟩, hs, he⟩ := Option.map_eq_some_iff.mp h
    cases he
    exact Or.inr ⟨_, _, _, rfl, rfl, rfl, hs⟩
  · cases h

theorem StreamCall.act_written (h : c.act s e = some (s', c')) : s.io.wire.written <+: s'.io.wire.written := by
  rcases StreamCall.act_cases h with ⟨call, call', e', io, rfl, rfl, rfl, rfl, hs⟩ | ⟨_, _, _, _, _, _, hs⟩
  · exact (TcpClient.sendStep_wire hs).written
  · rw [(SharedClient.receiveStep_io hs).1]

theorem StreamCall.act_arrived (h : c.act s e = some (s', c')) : s'.arrived = s.arrived := by
  rcases StreamCall.act_cases h with ⟨call, call', e', io, rfl, rfl, rfl, rfl, hs⟩ | ⟨_, _, _, _, _, _, hs⟩
  · rfl
  · exact (SharedClient.receiveStep_io hs).2

/-- A call that has returned takes no step. -/
theorem StreamCall.act_live (h : c.act s e = some (s', c')) : c.finished = false := by
  rcases StreamCall.act_cases h with ⟨call, call', e', io, rfl, rfl, rfl, rfl, hs⟩ | ⟨stage, _, e', rfl, _, _, hs⟩
  · obtain ⟨kind, m, stage⟩ := call
    cases stage <;> first | rfl | cases hs
  · cases stage <;> first | rfl | (cases e' <;> cases hs)

/-- The client's end: bytes arrive behind those that it has not read. -/
def clientEnd : Duplex.Endpoint (Pool SharedClient StreamCall) ClientEvent UInt8 where
  step := clientStep
  written p := p.shared.io.wire.written
  arrived p := p.shared.arrived
  deliver p bytes := { p with shared := { p.shared with incoming := p.shared.incoming ++ bytes } }
  written_step := by
    intro p e p' h
    cases e with
    | call e =>
        exact Program.shared_invariant (I := fun s => p.shared.io.wire.written <+: s.io.wire.written)
          (fun _ _ _ _ _ ha hI => hI.trans (StreamCall.act_written ha)) h List.prefix_rfl
    | disconnect =>
        obtain ⟨_, rfl⟩ := Option.ite_none_right_eq_some.mp h |>.imp_right Option.some.inj
        exact List.prefix_rfl
  arrived_step := by
    intro p e p' h
    cases e with
    | call e =>
        exact Program.shared_invariant (I := fun s => s.arrived = p.shared.arrived)
          (fun _ _ _ _ _ ha hI => (StreamCall.act_arrived ha).trans hI) h rfl
    | disconnect =>
        obtain ⟨_, rfl⟩ := Option.ite_none_right_eq_some.mp h |>.imp_right Option.some.inj
        rfl
  written_deliver _ _ := rfl
  arrived_deliver _ _ := (List.append_assoc _ _ _).symm

end Client

/-! ## The server -/

section Server

variable {s s' : SharedSession} {c c' : SessionCall} {e : SessionEvent}

/-- What the session has taken off the connection and not returned, and what it has not read. -/
def SharedSession.pending (s : SharedSession) : Bytes := s.session.readBuffer ++ s.incoming

/-- What has arrived is what was pending before, but for the message that is returned. -/
structure Accounts (before after : Bytes) (got : List Message) : Prop where
  bytes : before = encodeAll got ++ after
  valid : ∀ m ∈ got, messageCode.Valid m

theorem Accounts.rfl {bytes : Bytes} : Accounts bytes bytes [] := ⟨by simp, by simp⟩

theorem SharedSession.afterLoop_accounts {bytes : Bytes} {finished : Nat} {r : LoopEnd} {stage' : ReceiveStage}
    (hr : Accounts bytes (r.buf ++ r.incoming) (returnedBy r.result))
    (h : s.afterLoop finished r = (s', stage')) :
    Accounts bytes s'.pending (SessionCall.receive stage').got := by
  unfold afterLoop at h
  split at h
  · rename_i hresult
    cases h
    rwa [hresult] at hr
  · rename_i m hresult
    cases h
    rwa [hresult] at hr
  · rename_i err hresult
    cases h
    rwa [hresult] at hr

theorem SharedSession.receiveStep_accounts {stage stage' : ReceiveStage} {e : ReceiveEvent}
    (h : s.receiveStep stage e = some (s', stage')) :
    Accounts s.pending s'.pending (SessionCall.receive stage').got := by
  unfold receiveStep at h
  split at h
  · split at h
    · cases h; exact .rfl
    · split at h <;> cases h <;> exact .rfl
  · split at h
    · cases h
    · cases h; exact .rfl
  · cases h; exact .rfl
  · split at h
    · cases h
    · split at h
      · cases h; exact .rfl
      · split at h
        · cases h; exact .rfl
        · obtain ⟨hbytes, hvalid⟩ := receiveLoop_conserves s.session.assemblyTimeout _ [] s.session.readBuffer
            s.incoming
          exact afterLoop_accounts ⟨hbytes, hvalid⟩ (Option.some.inj h)
  · cases h; exact .rfl
  · obtain ⟨hbytes, hvalid⟩ := resumeLoop_conserves s.session.assemblyTimeout _ s.session.readBuffer s.incoming
    exact afterLoop_accounts ⟨hbytes, hvalid⟩ (Option.some.inj h)
  · cases h; exact .rfl
  · cases h

namespace SessionCall

theorem act_accounts (h : c.act s e = some (s', c')) : Accounts s.pending s'.pending c'.got := by
  have hstep := act_step h
  cases hstep with
  | send _ hs =>
      obtain ⟨now, hsession⟩ := Session.sendStep_session hs
      simp only [SharedSession.pending, SharedSession.session, hsession]
      exact .rfl
  | receive _ =>
      obtain ⟨⟨s₁, stage'⟩, hreceive, he⟩ := Option.map_eq_some_iff.mp h
      cases he
      exact SharedSession.receiveStep_accounts hreceive
  | close hclose => cases hclose <;> exact .rfl
  | setInactive => exact .rfl

theorem act_written (h : c.act s e = some (s', c')) : s.io.wire.written <+: s'.io.wire.written := by
  cases act_step h with
  | send _ hs => exact (Session.sendStep_wire hs).written
  | receive hreceive => rw [hreceive.frame.wire]
  | close hclose => rw [hclose.wire]
  | setInactive => exact List.prefix_rfl

end SessionCall

variable {reply : Message → List Message} {a a' : Served} {t t' : ServerCall}

/-- Every step of a task of the server is one of a call on the session. -/
theorem ServerCall.act_call (h : t.act reply a e = some (a', t')) : ∃ c c', c.act a.session e = some (a'.session, c') ∧
    a'.got = a.got ++ c'.got ∧
    ((t = .call c ∧ t' = .call c') ∨ ∃ todo, t = .serve c todo ∧ t' = resume reply todo c') := by
  unfold act at h
  split at h
  · obtain ⟨r, hr, he⟩ := Option.map_eq_some_iff.mp h
    cases he
    exact ⟨_, _, hr, rfl, Or.inl ⟨rfl, rfl⟩⟩
  · obtain ⟨r, hr, he⟩ := Option.map_eq_some_iff.mp h
    cases he
    exact ⟨_, _, hr, rfl, Or.inr ⟨_, rfl, rfl⟩⟩
  · cases h

/-- What has arrived at the session. -/
def Served.arrived (s : Served) : Bytes := encodeAll s.got ++ s.session.pending

theorem ServerCall.act_arrived (h : t.act reply a e = some (a', t')) : a'.arrived = a.arrived := by
  obtain ⟨c, c', hact, hgot, _⟩ := act_call h
  rw [Served.arrived, Served.arrived, hgot, (SessionCall.act_accounts hact).bytes, ← List.append_assoc]
  exact congrArg (· ++ _) (PrefixCode.encodeAll_append _ _)

theorem ServerCall.act_valid (h : t.act reply a e = some (a', t')) (ha : ∀ m ∈ a.got, messageCode.Valid m) :
    ∀ m ∈ a'.got, messageCode.Valid m := by
  obtain ⟨c, c', hact, hgot, _⟩ := act_call h
  rw [hgot]
  intro m hm
  rcases List.mem_append.mp hm with hm | hm
  · exact ha m hm
  · exact (SessionCall.act_accounts hact).valid m hm

/-- The server's end. -/
def serverEnd (reply : Message → List Message) :
    Duplex.Endpoint (Pool Served ServerCall) (TaskPool.Event SessionRequest SessionEvent) UInt8 where
  step := (serverCalls reply).step
  written p := p.shared.session.io.wire.written
  arrived p := p.shared.arrived
  deliver p bytes :=
    { p with shared.session.incoming := p.shared.session.incoming ++ bytes }
  written_step := by
    intro p e p' h
    refine Program.shared_invariant
      (I := fun s => p.shared.session.io.wire.written <+: s.session.io.wire.written) ?_ h List.prefix_rfl
    intro s t e s' t' ha hI
    obtain ⟨c, c', hact, _⟩ := ServerCall.act_call ha
    exact hI.trans (SessionCall.act_written hact)
  arrived_step := by
    intro p e p' h
    exact Program.shared_invariant (I := fun s => s.arrived = p.shared.arrived)
      (fun _ _ _ _ _ ha hI => (ServerCall.act_arrived ha).trans hI) h rfl
  written_deliver _ _ := rfl
  arrived_deliver _ _ := by
    simp only [Served.arrived, SharedSession.pending, SharedSession.session, List.append_assoc]

end Server

end NetworkSystem
