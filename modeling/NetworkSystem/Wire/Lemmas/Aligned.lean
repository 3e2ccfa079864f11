import NetworkSystem.Wire.Lemmas.Receive

/-!
# Calls that stop at frame boundaries

`TcpClient::receive` starts every call with an empty buffer. When no call stops inside a frame that is
what `Session::receive` finds in its buffer too, and both return the same messages.
-/

namespace NetworkSystem

variable {assemblyTimeout elapsed : Nat} {reads : List Read}

/-! ## One call of the loop -/

/-- The loop stops at a frame boundary of the stream: it returned `m`, or it was still at the front of
the frame of `m` and returned nothing. -/
def StopsAtFrame (m : Message) (rest p : Bytes) (r : LoopEnd) : Prop :=
  (returnedBy r.result = [m] ∧ r.buf = [] ∧ r.incoming = rest) ∨
    (p = [] ∧ returnedBy r.result = [] ∧ r.buf = [] ∧ r.incoming = m.frame ++ rest)

theorem StopsAtFrame.front {m : Message} {rest p q : Bytes} {r : LoopEnd} (hpq : m.frame = p ++ q)
    (hp : (p.length == 0) = true) (hret : returnedBy r.result = []) (hbuf : r.buf = p)
    (hinc : r.incoming = q ++ rest) : StopsAtFrame m rest p r := by
  obtain rfl : p = [] := List.length_eq_zero_iff.mp (beq_iff_eq.mp hp)
  exact Or.inr ⟨rfl, hret, hbuf, by rw [hinc, hpq, List.nil_append]⟩

/-- A read inside a frame takes its bytes from the frame. -/
theorem read_cut {q rest : Bytes} {k j : Nat} (hj : j = min k (q ++ rest).length) (hjq : j ≤ q.length) :
    (q ++ rest).take k = q.take j ∧ (q ++ rest).drop k = q.drop j ++ rest := by
  constructor
  · rw [List.take_eq_take_min, ← hj, List.take_append_of_le_length hjq]
  · rw [List.drop_eq_drop_min, ← hj, List.drop_append_of_le_length hjq]

theorem receiveLoop_aligned_stop {m : Message} (hm : m.size ≤ maxMessageSize) (rest : Bytes)
    {p q : Bytes} (hpq : m.frame = p ++ q) (hstop : assemblyTimeout ≤ elapsed ∨ q = [])
    {avail : Nat} (hal : readsFrame assemblyTimeout (4 + m.size) avail elapsed reads p.length = true) :
    StopsAtFrame m rest p (receiveLoop assemblyTimeout elapsed reads p (q ++ rest)) := by
  by_cases hel : assemblyTimeout ≤ elapsed
  · unfold readsFrame at hal
    simp only [ge_iff_le, hel, if_true] at hal
    rw [receiveLoop_timeout hel]
    exact .front hpq hal rfl rfl rfl
  · obtain rfl : q = [] := hstop.resolve_left hel
    rw [List.append_nil] at hpq; subst hpq
    rw [receiveLoop_frame (Nat.not_le.mp hel) (splitFrame_whole hm)]
    exact Or.inl ⟨rfl, rfl, rfl⟩

/-- Inside a frame, and in time, the loop asks for more. -/
theorem inside_frame {m : Message} (hm : m.size ≤ maxMessageSize) {p q : Bytes} (hpq : m.frame = p ++ q)
    (hstop : ¬ (assemblyTimeout ≤ elapsed ∨ q = [])) :
    ¬ assemblyTimeout ≤ elapsed ∧ ¬ Oversized p ∧ splitFrame p = none ∧ p.length ≠ 4 + m.size := by
  obtain ⟨hel, hq⟩ := not_or.mp hstop
  obtain ⟨hov, hs⟩ := incomplete_of_cut hm hpq hq
  exact ⟨hel, hov, hs, Nat.ne_of_lt (length_lt_of_cut hpq hq).1⟩

/-- From a frame boundary, a call whose reads stop at a frame boundary returns the next message, or it
fails before it has read anything. -/
theorem receiveLoop_aligned {m : Message} (hm : m.size ≤ maxMessageSize) (rest : Bytes)
    {reads : List Read} : ∀ {elapsed : Nat} {p q : Bytes}, m.frame = p ++ q →
      readsFrame assemblyTimeout (4 + m.size) (q ++ rest).length elapsed reads p.length = true →
      StopsAtFrame m rest p (receiveLoop assemblyTimeout elapsed reads p (q ++ rest)) := by
  induction reads with
  | nil =>
      intro elapsed p q hpq hal
      by_cases hstop : assemblyTimeout ≤ elapsed ∨ q = []
      · exact receiveLoop_aligned_stop hm rest hpq hstop hal
      · obtain ⟨hel, hov, hs, hgot⟩ := inside_frame hm hpq hstop
        rw [receiveLoop_more (Nat.not_le.mp hel) hov hs]
        simp only [readsFrame, ge_iff_le, hel, hgot, if_false] at hal
        exact .front hpq hal rfl rfl rfl
  | cons read reads ih =>
      intro elapsed p q hpq hal
      by_cases hstop : assemblyTimeout ≤ elapsed ∨ q = []
      · exact receiveLoop_aligned_stop hm rest hpq hstop hal
      · obtain ⟨hel, hov, hs, hgot⟩ := inside_frame hm hpq hstop
        rw [receiveLoop_more (Nat.not_le.mp hel) hov hs]
        unfold readsFrame at hal
        simp only [ge_iff_le, hel, hgot, if_false] at hal
        obtain ⟨outcome, elapsed'⟩ := read
        cases outcome with
        | timedOut => exact .front hpq hal rfl rfl rfl
        | failed e => exact .front hpq hal rfl rfl rfl
        | ready k =>
            -- a read takes `j` bytes, no matter how many it asked for
            obtain ⟨j, hj⟩ : ∃ j, j = min k (q ++ rest).length := ⟨_, rfl⟩
            simp only [← hj] at hal
            by_cases hk : j = 0
            · simp only [hk, if_true] at hal
              have htake : (q ++ rest).take k = [] := by
                apply List.eq_nil_of_length_eq_zero
                rw [List.length_take, ← hj, hk]
              simp only [htake, if_true]
              exact .front hpq hal rfl rfl rfl
            · simp only [hk, if_false, Bool.and_eq_true, decide_eq_true_eq] at hal
              have hjq : j ≤ q.length := by
                have := (length_lt_of_cut hpq (not_or.mp hstop).2).2
                omega
              obtain ⟨htake, hdrop⟩ := read_cut hj hjq
              have hlen : (q.take j).length = j := by rw [List.length_take, Nat.min_eq_left hjq]
              have hne : q.take j ≠ [] := by
                intro h
                rw [h] at hlen
                exact hk hlen.symm
              simp only [htake, hdrop, hne, if_false]
              have hpq' : m.frame = (p ++ q.take j) ++ q.drop j := by
                rw [List.append_assoc, List.take_append_drop, hpq]
              have hlen' : (p ++ q.take j).length = p.length + j := by rw [List.length_append, hlen]
              have havail : (q.drop j ++ rest).length = (q ++ rest).length - j := by
                rw [List.length_append, List.length_append, List.length_drop]; omega
              rcases ih hpq' (by rw [hlen', havail]; exact hal.2) with h | ⟨h, _⟩
              · exact Or.inl h
              · exact absurd (List.append_eq_nil_iff.mp h).2 hne

theorem receiveLoop_end (assemblyTimeout elapsed : Nat) (reads : List Read) :
    let r := receiveLoop assemblyTimeout elapsed reads [] []
    returnedBy r.result = [] ∧ r.buf = [] ∧ r.incoming = [] := by
  by_cases hel : assemblyTimeout ≤ elapsed
  · rw [receiveLoop_timeout hel]; exact ⟨rfl, rfl, rfl⟩
  · rw [receiveLoop_more (Nat.not_le.mp hel) (by decide) (by decide)]
    rcases reads with _ | ⟨⟨_ | _ | _, _⟩, reads⟩ <;> simp [returnedBy]

/-! ## A client and a session that read the same bytes -/

/-- Both have read the same whole frames of the messages `ms`, and the session holds nothing back. -/
structure SameReads (ms : List Message) (c : ClientConn) (d : SessionConn) : Prop where
  rest : ∃ rest, ms = c.returned ++ rest ∧ c.incoming = encodeAll rest
  connected : c.client.state = .connected
  stream : c.client.stream = true
  returned : d.returned = c.returned
  incoming : d.incoming = c.incoming
  buffer : d.session.readBuffer = []
  active : d.session.active = true
  readHalf : d.session.readHalf = true
  readTimeout : d.session.readTimeout = c.client.readTimeout

theorem TcpClient.receive_panics {c : TcpClient} (hs : c.state = .connected) (hst : c.stream = true)
    (ho : c.overflows = true) (incoming : Bytes) (call : ReceiveCall) :
    c.receive incoming call = (none, incoming) := by
  simp [TcpClient.receive, hs, hst, ho]

theorem TcpClient.receive_connected {c : TcpClient} (hs : c.state = .connected) (hst : c.stream = true)
    (ho : c.overflows = false) (incoming : Bytes) (call : ReceiveCall) :
    c.receive incoming call =
      ((receiveLoop c.assemblyTimeout call.elapsed call.reads [] incoming).result,
        (receiveLoop c.assemblyTimeout call.elapsed call.reads [] incoming).incoming) := by
  simp [TcpClient.receive, hs, hst, ho]

/-- The loop leaves an empty buffer when it starts with one at the front of whole frames. -/
theorem receiveLoop_frames {rest : List Message} (hrest : ∀ m ∈ rest, m.size ≤ maxMessageSize)
    (hal : readsFrame assemblyTimeout (nextFrameLength (encodeAll rest)) (encodeAll rest).length elapsed
      reads 0 = true) :
    let r := receiveLoop assemblyTimeout elapsed reads [] (encodeAll rest)
    r.buf = [] ∧ ∃ rest', rest = returnedBy r.result ++ rest' ∧ r.incoming = encodeAll rest' := by
  cases rest with
  | nil =>
      obtain ⟨h₁, h₂, h₃⟩ := receiveLoop_end assemblyTimeout elapsed reads
      have hnil : encodeAll [] = [] := rfl
      rw [hnil]
      exact ⟨h₂, [], by rw [h₁]; rfl, h₃⟩
  | cons m rest =>
      have hm := hrest m (by simp)
      have henc : encodeAll (m :: rest) = m.frame ++ encodeAll rest := PrefixCode.encodeAll_cons _ _
      have hnext : nextFrameLength (encodeAll (m :: rest)) = 4 + m.size := by
        rw [henc, nextFrameLength, splitFrame_eq_some.mpr ⟨hm, rfl⟩]
      rw [hnext, henc] at hal
      rw [henc]
      have hloop := receiveLoop_aligned hm (encodeAll rest) (List.nil_append m.frame).symm hal
      rcases hloop with ⟨h₁, h₂, h₃⟩ | ⟨_, h₁, h₂, h₃⟩
      · exact ⟨h₂, rest, by rw [h₁]; rfl, h₃⟩
      · exact ⟨h₂, m :: rest, by rw [h₁]; rfl, by rw [h₃, henc]⟩

/-- Calls that panic read nothing. -/
theorem SameReads.panic {ms : List Message} {c : ClientConn} {d : SessionConn} (h : SameReads ms c d)
    {call : ReceiveCall} (ho : c.client.overflows = true) (hi : d.session.isIdle call.started = false) :
    SameReads ms (c.receive call) (d.receive call) := by
  have hd : d.session.overflows = true := by rw [Session.overflows, h.readTimeout]; exact ho
  have hpanics : d.session.receivePanics call = true := by
    simp [Session.receivePanics, h.active, hi, h.readHalf, hd]
  have hc : c.receive call = c := by
    rw [ClientConn.receive, TcpClient.receive_panics h.connected h.stream ho]
    simp [returnedBy]
  have hd : d.receive call = d := by
    rw [SessionConn.receive, Session.receive_panics _ hpanics]
    simp [returnedBy]
  rw [hc, hd]
  exact h

theorem SameReads.receive {ms : List Message} (hms : ∀ m ∈ ms, m.size ≤ maxMessageSize) {c : ClientConn}
    {d : SessionConn} (h : SameReads ms c d) {call : ReceiveCall} (ho : c.client.overflows = false)
    (hal : readsFrame c.client.assemblyTimeout (nextFrameLength c.incoming) c.incoming.length call.elapsed
      call.reads 0 = true)
    (hi : d.session.isIdle call.started = false) : SameReads ms (c.receive call) (d.receive call) := by
  obtain ⟨rest, hrest, hinc⟩ := h.rest
  have hat : d.session.assemblyTimeout = c.client.assemblyTimeout := by
    rw [Session.assemblyTimeout, h.readTimeout]; rfl
  have hd : d.session.overflows = false := by rw [Session.overflows, h.readTimeout]; exact ho
  have hc := TcpClient.receive_connected h.connected h.stream ho c.incoming call
  obtain ⟨h₁, h₂, h₃, hsetup⟩ := Session.receive_open d.incoming h.active hi h.readHalf hd
  rw [hat, h.buffer, h.incoming] at h₁ h₂ h₃
  rw [hinc] at hal hc h₁ h₂ h₃
  have hvalid : ∀ m ∈ rest, m.size ≤ maxMessageSize := fun m hm => hms m (by rw [hrest]; simp [hm])
  obtain ⟨hbuf, rest', hr, hi'⟩ := receiveLoop_frames hvalid hal
  have hcret : (c.receive call).returned = c.returned ++ returnedBy (receiveLoop
      c.client.assemblyTimeout call.elapsed call.reads [] (encodeAll rest)).result := by
    simp [ClientConn.receive, hinc, hc]
  have hcinc : (c.receive call).incoming = (receiveLoop
      c.client.assemblyTimeout call.elapsed call.reads [] (encodeAll rest)).incoming := by
    simp [ClientConn.receive, hinc, hc]
  have hdinc : d.incoming = encodeAll rest := h.incoming.trans hinc
  refine ⟨⟨rest', ?_, hcinc.trans hi'⟩, h.connected, h.stream, ?_, ?_, ?_, ?_, ?_, ?_⟩
  · rw [hcret, List.append_assoc, ← hr, hrest]
  · rw [hcret, SessionConn.receive, hdinc]
    simp only [h₁, h.returned]
  · rw [hcinc, SessionConn.receive, hdinc]
    exact h₃
  · rw [SessionConn.receive, hdinc]
    exact h₂.trans hbuf
  · exact hsetup.active.trans h.active
  · exact hsetup.readHalf.trans h.readHalf
  · exact hsetup.readTimeout.trans h.readTimeout

theorem SameReads.receiveAll {ms : List Message} (hms : ∀ m ∈ ms, m.size ≤ maxMessageSize)
    {calls : List ReceiveCall} : ∀ {c : ClientConn} {d : SessionConn}, SameReads ms c d →
      FrameAligned c calls → NeverIdle d calls →
      SameReads ms (c.receiveAll calls) (d.receiveAll calls) := by
  induction calls with
  | nil => intro c d h _ _; exact h
  | cons call calls ih =>
      intro c d h hal hidle
      cases ho : c.client.overflows with
      | true => exact ih (h.panic ho hidle.1) hal.2 hidle.2
      | false =>
          have hreads := hal.1
          rw [ho, Bool.false_or] at hreads
          exact ih (h.receive hms ho hreads hidle.1) hal.2 hidle.2

theorem neverIdle_of_started_le {calls : List ReceiveCall} : ∀ {d : SessionConn},
    (∀ call ∈ calls, call.started ≤ d.session.idleTimeout) → NeverIdle d calls := by
  induction calls with
  | nil => intro d _; trivial
  | cons call calls ih =>
      intro d h
      have hcall := h call (by simp)
      refine ⟨by simp only [Session.isIdle, decide_eq_false_iff_not]; omega, ih fun k hk => ?_⟩
      have hsetup := d.session.receive_setup d.incoming call
      exact (h k (by simp [hk])).trans (Nat.le_of_eq hsetup.idleTimeout.symm)

end NetworkSystem
