import NetworkSystem.Wire.Receive
import NetworkSystem.Wire.Lemmas.Codec

/-!
# The receive loop

One equation for each way the loop can go on, and the induction over its reads (`receiveLoop_induction`), then what
a whole call does: it takes bytes off the unread part of the stream and frames off the front of the buffer, and
nothing else (`receiveLoop_conserves`).
-/

namespace NetworkSystem

/-! ## The buffer stays below both limits -/

/-- A buffer from which `decode` asks for more is shorter than the longest frame. -/
theorem length_lt_of_incomplete {buf : Bytes} (hov : ¬ Oversized buf) (hs : splitFrame buf = none) :
    buf.length < 4 + maxMessageSize := by
  by_contra hlen
  have hmax : beValue (buf.take 4) ≤ maxMessageSize := by
    by_contra h
    exact hov ⟨by omega, by omega⟩
  have hc : 4 ≤ buf.length ∧ beValue (buf.take 4) ≤ maxMessageSize ∧
      4 + beValue (buf.take 4) ≤ buf.length := by omega
  simp [splitFrame, hc] at hs

/-! ## Equations of the loop -/

variable {assemblyTimeout elapsed : Nat} {reads : List Read} {buf incoming : Bytes}

theorem receiveLoop_timeout (h : assemblyTimeout ≤ elapsed) :
    receiveLoop assemblyTimeout elapsed reads buf incoming =
      ⟨some (.error (.timeout
        "Message assembly timeout: took too long to receive complete message")), buf, incoming⟩ := by
  unfold receiveLoop
  simp [h]

theorem receiveLoop_oversized (h : elapsed < assemblyTimeout) (hov : Oversized buf) :
    receiveLoop assemblyTimeout elapsed reads buf incoming =
      ⟨some (.error (.messageTooLarge (beValue (buf.take 4)) maxMessageSize)), buf, incoming⟩ := by
  unfold receiveLoop
  simp [Nat.not_le.mpr h, decode_eq, hov]

theorem receiveLoop_frame {m : Message} {r : Bytes} (h : elapsed < assemblyTimeout)
    (hs : splitFrame buf = some (m, r)) :
    receiveLoop assemblyTimeout elapsed reads buf incoming = ⟨some (.ok m), r, incoming⟩ := by
  have hov : ¬ Oversized buf := by
    intro hov; rw [splitFrame_none_of_oversized hov] at hs; cases hs
  unfold receiveLoop
  simp [Nat.not_le.mpr h, decode_eq, hov, hs]

/-- The loop asks for more: the malformed-data guard does not fire, and the next read decides. -/
theorem receiveLoop_more (h : elapsed < assemblyTimeout) (hov : ¬ Oversized buf)
    (hs : splitFrame buf = none) :
    receiveLoop assemblyTimeout elapsed reads buf incoming =
      match reads with
      | [] => ⟨none, buf, incoming⟩
      | ⟨.timedOut, _⟩ :: _ => ⟨some (.error (.timeout "Read timed out")), buf, incoming⟩
      | ⟨.failed e, _⟩ :: _ => ⟨some (.error (.connection ("Failed to read: " ++ e))), buf, incoming⟩
      | ⟨.ready n, elapsed⟩ :: reads =>
          if incoming.take n = [] then
            ⟨some (.error (.connection "Connection closed by peer")), buf, incoming⟩
          else
            receiveLoop assemblyTimeout elapsed reads (buf ++ incoming.take n) (incoming.drop n) := by
  have hlen : ¬ maxBufferSize ≤ buf.length := by
    have := length_lt_of_incomplete hov hs
    unfold maxBufferSize; omega
  have hdec : Message.decode buf = (.ok none, buf) := by rw [decode_eq]; simp [hov, hs]
  rw [receiveLoop, if_neg (Nat.not_le.mpr h), hdec]
  rcases reads with _ | ⟨⟨_ | _ | _, _⟩, reads⟩ <;> simp only [hlen, if_false]

theorem receiveLoop_cases (assemblyTimeout elapsed : Nat) (buf : Bytes) :
    assemblyTimeout ≤ elapsed ∨
      (elapsed < assemblyTimeout ∧ Oversized buf) ∨
      (elapsed < assemblyTimeout ∧ ∃ m r, splitFrame buf = some (m, r)) ∨
      (elapsed < assemblyTimeout ∧ ¬ Oversized buf ∧ splitFrame buf = none) := by
  by_cases h : assemblyTimeout ≤ elapsed
  · exact Or.inl h
  · have h := Nat.not_le.mp h
    by_cases hov : Oversized buf
    · exact Or.inr (Or.inl ⟨h, hov⟩)
    · cases hs : splitFrame buf with
      | none => exact Or.inr (Or.inr (Or.inr ⟨h, hov, rfl⟩))
      | some mr => exact Or.inr (Or.inr (Or.inl ⟨h, mr.1, mr.2, rfl⟩))

/-- Without a read the loop leaves the unread bytes alone. -/
theorem receiveLoop_incoming (assemblyTimeout elapsed : Nat) (buf incoming : Bytes) :
    (receiveLoop assemblyTimeout elapsed [] buf incoming).incoming = incoming := by
  rcases receiveLoop_cases assemblyTimeout elapsed buf with h | ⟨h, hov⟩ | ⟨h, m, r, hs⟩ | ⟨h, hov, hs⟩
  · rw [receiveLoop_timeout h]
  · rw [receiveLoop_oversized h hov]
  · rw [receiveLoop_frame h hs]
  · rw [receiveLoop_more h hov hs]

/-! ## A whole call -/

/-- The induction over the reads of a loop: what holds at each of its ends, and of a loop with a read if it holds of
the loop that goes on with what was read, holds of every loop. -/
theorem receiveLoop_induction {P : Bytes → Bytes → LoopEnd → Prop}
    (htimeout : ∀ buf incoming, P buf incoming ⟨some (.error (.timeout
      "Message assembly timeout: took too long to receive complete message")), buf, incoming⟩)
    (hlarge : ∀ buf incoming, Oversized buf →
      P buf incoming ⟨some (.error (.messageTooLarge (beValue (buf.take 4)) maxMessageSize)), buf, incoming⟩)
    (hframe : ∀ buf incoming m rest, splitFrame buf = some (m, rest) →
      P buf incoming ⟨some (.ok m), rest, incoming⟩)
    (hasks : ∀ buf incoming, ¬ Oversized buf → splitFrame buf = none → P buf incoming ⟨none, buf, incoming⟩)
    (htimedOut : ∀ buf incoming, P buf incoming ⟨some (.error (.timeout "Read timed out")), buf, incoming⟩)
    (hfailed : ∀ buf incoming e,
      P buf incoming ⟨some (.error (.connection ("Failed to read: " ++ e))), buf, incoming⟩)
    (hclosed : ∀ buf incoming,
      P buf incoming ⟨some (.error (.connection "Connection closed by peer")), buf, incoming⟩)
    (hready : ∀ buf incoming n r, P (buf ++ incoming.take n) (incoming.drop n) r → P buf incoming r)
    (assemblyTimeout elapsed : Nat) (reads : List Read) (buf incoming : Bytes) :
    P buf incoming (receiveLoop assemblyTimeout elapsed reads buf incoming) := by
  have hlast : ∀ {reads elapsed} {buf incoming : Bytes}, (elapsed < assemblyTimeout → ¬ Oversized buf →
      splitFrame buf = none → P buf incoming (receiveLoop assemblyTimeout elapsed reads buf incoming)) →
      P buf incoming (receiveLoop assemblyTimeout elapsed reads buf incoming) := by
    intro reads elapsed buf incoming hmore
    rcases receiveLoop_cases assemblyTimeout elapsed buf with h | ⟨h, hov⟩ | ⟨h, m, r, hs⟩ | ⟨h, hov, hs⟩
    · rw [receiveLoop_timeout h]; exact htimeout _ _
    · rw [receiveLoop_oversized h hov]; exact hlarge _ _ hov
    · rw [receiveLoop_frame h hs]; exact hframe _ _ _ _ hs
    · exact hmore h hov hs
  induction reads generalizing elapsed buf incoming with
  | nil =>
      refine hlast fun h hov hs => ?_
      rw [receiveLoop_more h hov hs]; exact hasks _ _ hov hs
  | cons read reads ih =>
      refine hlast fun h hov hs => ?_
      rw [receiveLoop_more h hov hs]
      obtain ⟨outcome, elapsed'⟩ := read
      cases outcome with
      | timedOut => exact htimedOut _ _
      | failed e => exact hfailed _ _ e
      | ready n =>
          by_cases hn : incoming.take n = []
          · simp only [hn, if_true]
            exact hclosed _ _
          · simp only [hn, if_false]
            exact hready _ _ n _ (ih elapsed' _ _)

/-- A call moves bytes from the unread stream to the buffer and takes the frame of the message it returns
off the front of the buffer; no byte is lost, duplicated or altered. -/
theorem receiveLoop_conserves (assemblyTimeout elapsed : Nat) (reads : List Read) (buf incoming : Bytes) :
    buf ++ incoming =
        encodeAll (returnedBy (receiveLoop assemblyTimeout elapsed reads buf incoming).result) ++
          ((receiveLoop assemblyTimeout elapsed reads buf incoming).buf ++
            (receiveLoop assemblyTimeout elapsed reads buf incoming).incoming) ∧
      ∀ m ∈ returnedBy (receiveLoop assemblyTimeout elapsed reads buf incoming).result,
        messageCode.Valid m := by
  apply receiveLoop_induction (P := fun buf incoming r =>
    buf ++ incoming = encodeAll (returnedBy r.result) ++ (r.buf ++ r.incoming) ∧
      ∀ m ∈ returnedBy r.result, messageCode.Valid m)
  case hframe =>
    intro buf incoming m rest hs
    obtain ⟨hm, rfl⟩ := splitFrame_eq_some.mp hs
    simpa [returnedBy, messageCode] using hm
  case hready =>
    intro buf incoming n r hr
    rwa [List.append_assoc, List.take_append_drop] at hr
  all_goals simp [returnedBy]

/-! ## `Session::receive` -/

/-- What a call does not change. -/
structure Session.SameSetup (s s' : Session) : Prop where
  active : s'.active = s.active
  readHalf : s'.readHalf = s.readHalf
  readTimeout : s'.readTimeout = s.readTimeout
  idleTimeout : s'.idleTimeout = s.idleTimeout

theorem Session.SameSetup.refl (s : Session) : s.SameSetup s := ⟨rfl, rfl, rfl, rfl⟩

variable {s : Session} {call : ReceiveCall}

theorem Session.receive_open (incoming : Bytes) (ha : s.active = true) (hi : s.isIdle call.started = false)
    (hr : s.readHalf = true) (ho : s.overflows = false) :
    (s.receive incoming call).1 =
        (receiveLoop s.assemblyTimeout call.elapsed call.reads s.readBuffer incoming).result ∧
      (s.receive incoming call).2.1.readBuffer =
        (receiveLoop s.assemblyTimeout call.elapsed call.reads s.readBuffer incoming).buf ∧
      (s.receive incoming call).2.2 =
        (receiveLoop s.assemblyTimeout call.elapsed call.reads s.readBuffer incoming).incoming ∧
      s.SameSetup (s.receive incoming call).2.1 := by
  unfold Session.receive
  simp only [ha, hi, hr, ho, Bool.not_true, Bool.false_eq_true, if_false]
  generalize receiveLoop s.assemblyTimeout call.elapsed call.reads s.readBuffer incoming = r
  obtain ⟨result, buf, inc⟩ := r
  rcases result with _ | e | m <;> exact ⟨rfl, rfl, rfl, ⟨ha.symm, hr.symm, rfl, rfl⟩⟩

theorem Session.receive_refused
    (h : ¬ (s.active = true ∧ s.isIdle call.started = false ∧ s.readHalf = true)) :
    ∃ e, s.receive incoming call = (some (.error e), s, incoming) := by
  unfold Session.receive
  cases ha : s.active with
  | false => exact ⟨_, rfl⟩
  | true =>
      cases hi : s.isIdle call.started with
      | true => exact ⟨_, rfl⟩
      | false =>
          cases hr : s.readHalf with
          | false => exact ⟨_, rfl⟩
          | true => exact absurd ⟨ha, hi, hr⟩ h

theorem Session.receive_panics (incoming : Bytes) (h : s.receivePanics call = true) :
    s.receive incoming call = (none, s, incoming) := by
  simp only [Session.receivePanics, Bool.and_eq_true, Bool.not_eq_true'] at h
  obtain ⟨⟨⟨ha, hi⟩, hr⟩, ho⟩ := h
  simp only [Session.receive, ha, hi, hr, ho, Bool.not_true, Bool.false_eq_true, if_false, if_true]

/-- A call is refused, panics, or enters the loop. -/
theorem Session.receive_cases (s : Session) (incoming : Bytes) (call : ReceiveCall) :
    (∃ e, s.receive incoming call = (some (.error e), s, incoming)) ∨
      (s.receivePanics call = true ∧ s.receive incoming call = (none, s, incoming)) ∨
      (s.active = true ∧ s.isIdle call.started = false ∧ s.readHalf = true ∧ s.overflows = false) := by
  by_cases h : s.active = true ∧ s.isIdle call.started = false ∧ s.readHalf = true
  · cases ho : s.overflows with
    | false => exact Or.inr (Or.inr ⟨h.1, h.2.1, h.2.2, rfl⟩)
    | true =>
        have hpanics : s.receivePanics call = true := by simp [Session.receivePanics, h, ho]
        exact Or.inr (Or.inl ⟨hpanics, Session.receive_panics incoming hpanics⟩)
  · exact Or.inl (Session.receive_refused h)

theorem Session.receive_setup (s : Session) (incoming : Bytes) (call : ReceiveCall) :
    s.SameSetup (s.receive incoming call).2.1 := by
  rcases s.receive_cases incoming call with ⟨e, h⟩ | ⟨_, h⟩ | ⟨ha, hi, hr, ho⟩
  · rw [h]; exact .refl s
  · rw [h]; exact .refl s
  · exact (Session.receive_open incoming ha hi hr ho).2.2.2

theorem Session.receive_buffered {m : Message} {r : Bytes} (ha : s.active = true)
    (hi : s.isIdle call.started = false) (hr : s.readHalf = true) (ho : s.overflows = false)
    (hel : call.elapsed < s.assemblyTimeout) (hs : splitFrame s.readBuffer = some (m, r)) :
    (s.receive incoming call).1 = some (.ok m) ∧ (s.receive incoming call).2.1.readBuffer = r ∧
      (s.receive incoming call).2.2 = incoming := by
  obtain ⟨h₁, h₂, h₃, _⟩ := Session.receive_open incoming ha hi hr ho
  rw [receiveLoop_frame hel hs] at h₁ h₂ h₃
  exact ⟨h₁, h₂, h₃⟩

/-- Behind an oversized header every call fails and leaves the header where it is. -/
theorem Session.receive_oversized (hov : Oversized s.readBuffer) (ho : s.overflows = false) (incoming : Bytes)
    (call : ReceiveCall) :
    (∃ e, (s.receive incoming call).1 = some (.error e)) ∧
      (s.receive incoming call).2.1.readBuffer = s.readBuffer := by
  rcases s.receive_cases incoming call with ⟨e, h⟩ | ⟨hp, _⟩ | ⟨ha, hi, hr, _⟩
  · rw [h]; exact ⟨⟨e, rfl⟩, rfl⟩
  · simp [Session.receivePanics, ho] at hp
  · obtain ⟨h₁, h₂, _, _⟩ := Session.receive_open incoming ha hi hr ho
    by_cases hel : s.assemblyTimeout ≤ call.elapsed
    · rw [receiveLoop_timeout hel] at h₁ h₂; exact ⟨⟨_, h₁⟩, h₂⟩
    · rw [receiveLoop_oversized (Nat.not_le.mp hel) hov] at h₁ h₂; exact ⟨⟨_, h₁⟩, h₂⟩

/-- What the calls of a session have returned, its buffer and the unread bytes make up the stream. -/
theorem Session.receive_conserves (s : Session) (incoming : Bytes) (call : ReceiveCall) :
    s.readBuffer ++ incoming = encodeAll (returnedBy (s.receive incoming call).1) ++
        ((s.receive incoming call).2.1.readBuffer ++ (s.receive incoming call).2.2) ∧
      ∀ m ∈ returnedBy (s.receive incoming call).1, messageCode.Valid m := by
  rcases s.receive_cases incoming call with ⟨e, h⟩ | ⟨_, h⟩ | ⟨ha, hi, hr, ho⟩
  · rw [h]; simp [returnedBy]
  · rw [h]; simp [returnedBy]
  · obtain ⟨h₁, h₂, h₃, _⟩ := Session.receive_open incoming ha hi hr ho
    rw [h₁, h₂, h₃]
    exact receiveLoop_conserves _ _ _ _ _

/-! ## Runs of a session -/

/-- A session whose calls panic has nothing in its buffer. -/
theorem Session.receive_unread (hun : s.overflows = true → s.readBuffer = []) (incoming : Bytes)
    (call : ReceiveCall) (ho : s.overflows = true) : (s.receive incoming call).2.1.readBuffer = [] := by
  rcases s.receive_cases incoming call with ⟨e, h⟩ | ⟨_, h⟩ | ⟨_, _, _, hno⟩
  · rw [h]; exact hun ho
  · rw [h]; exact hun ho
  · rw [ho] at hno
    cases hno

theorem Session.SameSetup.overflows {s' : Session} (h : s.SameSetup s') : s'.overflows = s.overflows := by
  rw [Session.overflows, Session.overflows, h.readTimeout]

/-- The stream is what the session has returned, then its buffer, then what it has not read. -/
structure SessionConn.Reassembles (stream : Bytes) (c : SessionConn) : Prop where
  stream_eq : stream = encodeAll c.returned ++ (c.session.readBuffer ++ c.incoming)
  valid : ∀ m ∈ c.returned, messageCode.Valid m
  active : c.session.active = true
  readHalf : c.session.readHalf = true
  unread : c.session.overflows = true → c.session.readBuffer = []

theorem SessionConn.Reassembles.receive {stream : Bytes} {c : SessionConn} (h : c.Reassembles stream)
    (call : ReceiveCall) : (c.receive call).Reassembles stream := by
  obtain ⟨hcons, hvalid⟩ := c.session.receive_conserves c.incoming call
  have hsetup := c.session.receive_setup c.incoming call
  refine ⟨?_, ?_, hsetup.active.trans h.active, hsetup.readHalf.trans h.readHalf, fun ho =>
    Session.receive_unread h.unread _ _ (hsetup.overflows.symm.trans ho)⟩
  · rw [h.stream_eq, hcons]
    simp [SessionConn.receive]
  · intro m hm
    rcases List.mem_append.mp hm with hm | hm
    · exact h.valid m hm
    · exact hvalid m hm

theorem SessionConn.Reassembles.receiveAll {stream : Bytes} {c : SessionConn} (h : c.Reassembles stream)
    (calls : List ReceiveCall) : (c.receiveAll calls).Reassembles stream := by
  induction calls generalizing c with
  | nil => exact h
  | cons call calls ih => exact ih (h.receive call)

theorem SessionConn.Reassembles.returned_prefix {stream : Bytes} {c : SessionConn}
    (h : c.Reassembles stream) : c.returned <+: frames stream :=
  PrefixCode.prefix_parse h.valid ⟨_, h.stream_eq.symm⟩

/-- A session that has bytes in its buffer does not panic. -/
theorem SessionConn.Reassembles.fits {stream : Bytes} {c : SessionConn} (h : c.Reassembles stream)
    (hbuf : c.session.readBuffer ≠ []) : c.session.overflows = false :=
  eq_false_of_ne_true fun ho => hbuf (h.unread ho)

theorem SessionConn.receiveAll_oversized {c : SessionConn} (hov : Oversized c.session.readBuffer)
    (ho : c.session.overflows = false) (calls : List ReceiveCall) :
    (c.receiveAll calls).returned = c.returned ∧
      (c.receiveAll calls).session.readBuffer = c.session.readBuffer ∧
      (c.receiveAll calls).session.overflows = false := by
  induction calls generalizing c with
  | nil => exact ⟨rfl, rfl, ho⟩
  | cons call calls ih =>
      obtain ⟨⟨e, he⟩, hbuf⟩ := Session.receive_oversized hov ho c.incoming call
      have hbuf' : (c.receive call).session.readBuffer = c.session.readBuffer := hbuf
      have hsetup := c.session.receive_setup c.incoming call
      obtain ⟨h₁, h₂, h₃⟩ := ih (c := c.receive call) (by rw [hbuf']; exact hov) (hsetup.overflows.trans ho)
      have hret : (c.receive call).returned = c.returned := by
        simp [SessionConn.receive, he, returnedBy]
      exact ⟨h₁.trans hret, h₂.trans hbuf', h₃⟩

end NetworkSystem
