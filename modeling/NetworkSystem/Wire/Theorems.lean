import NetworkSystem.Wire.Lemmas.Aligned
import NetworkSystem.Wire.Lemmas.Send
import Mathlib.Algebra.Order.BigOperators.Group.List
import Mathlib.Algebra.Order.Group.Nat

/-!
# The wire format and the receive paths

The exact grammar that `decode` accepts, reassembly by `Session::receive` for every stream and every
splitting into reads, and the condition under which `TcpClient::receive` reassembles as well.
-/

namespace NetworkSystem

/-! ## The wire grammar -/

/-- The grammar of `decode`. It returns a message exactly when its frame is at the front of the buffer,
and leaves the rest. It asks for more exactly when the header is incomplete or the buffer stops inside
the frame of some message. It fails exactly when a whole header announces more than `MAX_MESSAGE_SIZE`
bytes, and with that number. Without a message it leaves the buffer alone, and a verdict that is not
"more" stays when bytes are appended. -/
theorem decode_grammar (b : Bytes) :
    (∀ m r, Message.decode b = (.ok (some m), r) ↔
      m.size ≤ maxMessageSize ∧ ∃ f, m.encode = .ok f ∧ b = f ++ r) ∧
    ((Message.decode b).1 = .ok none ↔
      b.length < headerSize ∨ ∃ m f, Message.encode m = .ok f ∧ b <+: f ∧ b ≠ f) ∧
    (∀ e, (Message.decode b).1 = .error e ↔
      (headerSize ≤ b.length ∧ maxMessageSize < beValue (b.take headerSize)) ∧
        e = .messageTooLarge (beValue (b.take headerSize)) maxMessageSize) ∧
    ((∀ m, (Message.decode b).1 ≠ .ok (some m)) → (Message.decode b).2 = b) ∧
    (∀ t m r, Message.decode b = (.ok (some m), r) → Message.decode (b ++ t) = (.ok (some m), r ++ t)) ∧
    (∀ t e, (Message.decode b).1 = .error e → Message.decode (b ++ t) = (.error e, b ++ t)) := by
  refine ⟨fun m r => decode_message_iff, decode_incomplete_iff, fun e => decode_eq_error, decode_keeps, ?_, ?_⟩
  · intro t m r h
    rw [decode_eq_some] at h ⊢
    exact PrefixCode.dec_append (c := messageCode) h t
  · intro t e h
    obtain ⟨hov, rfl⟩ := decode_eq_error.mp h
    rw [decode_eq, if_pos (hov.append t), List.take_append_of_le_length hov.1]

/-- `decode` asks for more on a single byte 255, although no frame begins with it. -/
theorem decode_partial_header :
    (Message.decode [255]).1 = .ok none ∧
      ¬ ∃ m f, Message.encode m = .ok f ∧ [255] <+: f ∧ [255] ≠ f := by
  refine ⟨rfl, ?_⟩
  rintro ⟨m, f, hf, ⟨t, ht⟩, _⟩
  obtain ⟨hm, rfl⟩ := Message.encode_eq_ok.mp hf
  simp only [Message.frame, u32ToBeBytes, List.cons_append, List.nil_append, List.cons.injEq] at ht
  have hbyte := congrArg UInt8.toNat ht.1
  rw [UInt8.toNat_ofNat', UInt32.toNat_ofNat'] at hbyte
  unfold Message.size maxMessageSize at hm
  have h255 : (255 : UInt8).toNat = 255 := rfl
  omega

/-! ## `Session::receive` -/

/-- Reassembly by a session. Whatever the peer sends, however it is split into reads and whichever calls
time out, the messages returned so far are the first messages of the stream read as frames, and what
they do not account for is in the buffer or unread. A frame that is complete in the buffer is returned
by the next call that does not time out, without a read; behind an oversized header no call ever returns
a message again. -/
theorem session_receive_reassembles (now readTimeout writeTimeout idleTimeout : Nat) (stream : Bytes)
    (calls : List ReceiveCall) :
    let c := (SessionConn.accept now readTimeout writeTimeout idleTimeout stream).receiveAll calls
    c.returned <+: frames stream ∧
    stream = encodeAll c.returned ++ (c.session.readBuffer ++ c.incoming) ∧
    (∀ call m r, splitFrame c.session.readBuffer = some (m, r) →
      c.session.isIdle call.started = false → call.elapsed < c.session.assemblyTimeout →
      (c.session.receive c.incoming call).1 = some (.ok m) ∧
        (c.session.receive c.incoming call).2.1.readBuffer = r ∧
        (c.session.receive c.incoming call).2.2 = c.incoming) ∧
    (Oversized c.session.readBuffer → ∀ later call,
      (c.receiveAll later).returned = c.returned ∧
        ∃ e, ((c.receiveAll later).session.receive (c.receiveAll later).incoming call).1 =
          some (.error e)) := by
  intro c
  have h : c.Reassembles stream := by
    refine SessionConn.Reassembles.receiveAll ⟨?_, ?_, rfl, rfl, fun _ => rfl⟩ calls
    · rfl
    · intro m hm; simp [SessionConn.accept] at hm
  refine ⟨h.returned_prefix, h.stream_eq, ?_, ?_⟩
  · intro call m r hs hidle hel
    have hno : c.session.overflows = false := h.fits fun hnil => by rw [hnil] at hs; cases hs
    exact Session.receive_buffered h.active hidle h.readHalf hno hel hs
  · intro hov later call
    have hno : c.session.overflows = false := h.fits fun hnil => by rw [hnil] at hov; cases hov.1
    obtain ⟨hret, hbuf, hlater⟩ := SessionConn.receiveAll_oversized hov hno later
    exact ⟨hret, (Session.receive_oversized (by rw [hbuf]; exact hov) hlater _ _).1⟩

/-! ## `TcpClient::receive` -/

/-- Reassembly by a client whose calls all stop at frame boundaries: it returns the first messages that
the peer sent, and the same ones as a session that makes the same calls on the same reads. -/
theorem client_receive_reassembles (readTimeout : Nat) (ms : List Message)
    (hms : ∀ m ∈ ms, m.size ≤ maxMessageSize) (calls : List ReceiveCall)
    (haligned : FrameAligned (ClientConn.connect readTimeout (encodeAll ms)) calls) :
    let c := (ClientConn.connect readTimeout (encodeAll ms)).receiveAll calls
    c.returned <+: ms ∧
    ∀ now writeTimeout idleTimeout,
      let d := SessionConn.accept now readTimeout writeTimeout idleTimeout (encodeAll ms)
      NeverIdle d calls → c.returned = (d.receiveAll calls).returned := by
  intro c
  have hsame : ∀ now writeTimeout idleTimeout,
      let d := SessionConn.accept now readTimeout writeTimeout idleTimeout (encodeAll ms)
      NeverIdle d calls → SameReads ms c (d.receiveAll calls) := by
    intro now writeTimeout idleTimeout d hidle
    exact SameReads.receiveAll hms ⟨⟨ms, rfl, rfl⟩, rfl, rfl, rfl, rfl, rfl, rfl, rfl, rfl⟩ haligned hidle
  refine ⟨?_, fun now writeTimeout idleTimeout hidle => (hsame _ _ _ hidle).returned.symm⟩
  -- the client has no idle timeout, so it agrees with a session whose timeout is long enough
  have hlong := hsame 0 0 (calls.map ReceiveCall.started).sum (neverIdle_of_started_le fun call hc =>
    List.le_sum_of_mem (List.mem_map_of_mem hc))
  obtain ⟨rest, hrest, _⟩ := hlong.rest
  exact ⟨rest, hrest.symm⟩

/-- Three messages of one byte, whose frames are five bytes long. -/
def threeMessages : List Message := [⟨[1]⟩, ⟨[2]⟩, ⟨[3]⟩]

/-- Two calls that each read once: at most `n` bytes, then at most `k`. -/
def twoReads (n k : Nat) : List ReceiveCall :=
  [⟨0, 0, [⟨.ready n, 1⟩], 1⟩, ⟨1, 0, [⟨.ready k, 1⟩], 2⟩]

/-- With one frame in each read the client returns what was sent. -/
theorem client_receive_one_frame_a_read :
    let c := (ClientConn.connect 1000 (encodeAll threeMessages)).receiveAll (twoReads 5 5)
    let d := (SessionConn.accept 0 1000 1000 1000 (encodeAll threeMessages)).receiveAll (twoReads 5 5)
    c.returned <+: threeMessages ∧ c.returned = d.returned :=
  have h := client_receive_reassembles 1000 threeMessages (by decide) (twoReads 5 5) (by decide)
  ⟨h.1, h.2 0 1000 1000 (by decide)⟩

/-- With two frames in the first read the client drops the second message, which the session returns. -/
theorem client_receive_two_frames_a_read :
    let c := (ClientConn.connect 1000 (encodeAll threeMessages)).receiveAll (twoReads 10 5)
    let d := (SessionConn.accept 0 1000 1000 1000 (encodeAll threeMessages)).receiveAll (twoReads 10 5)
    (∀ m ∈ threeMessages, m.size ≤ maxMessageSize) ∧ c.returned = [⟨[1]⟩, ⟨[3]⟩] ∧
      ¬ c.returned <+: threeMessages ∧ d.returned = [⟨[1]⟩, ⟨[2]⟩] := by
  decide

/-! ## Sending -/

open Steps TaskPool

/-- Any number of tasks call `send` on a session, or `send` and `try_send` on a client connection, with
any outcome of each write. As long as nothing is written behind a frame that was torn, the frames on the
connection are intact. -/
theorem sends_keep_frames_intact (s : Session) (c : TcpClient) :
    (∀ es p, Along sessionSends.step (NothingBehindTorn SessionWire.wire) ⟨⟨s, {}⟩, []⟩ es →
      run sessionSends.step ⟨⟨s, {}⟩, []⟩ es = some p → FramesIntact p.shared.wire p.tasks) ∧
    (∀ es p, Along clientSends.step (NothingBehindTorn ClientWire.wire) ⟨⟨c, {}⟩, []⟩ es →
      run clientSends.step ⟨⟨c, {}⟩, []⟩ es = some p → FramesIntact p.shared.wire p.tasks) :=
  ⟨fun _ _ hC hr => sessionSends_sends.framesIntact rfl hC hr,
    fun _ _ hC hr => clientSends_sends.framesIntact rfl hC hr⟩

/-- A write of `[1, 2]` that times out after three bytes, then a whole send of `[9]`. -/
def sendBehindTorn {κ : Type} (k : Message → κ) (begun : List SendEvent) :
    List (TaskPool.Event κ SendEvent) :=
  .spawn (k ⟨[1, 2]⟩) :: acts 0 ([.check 0, .lock] ++ begun ++ [.put 3, .timedOut]) ++
    .spawn (k ⟨[9]⟩) :: acts 1 ([.check 0, .lock] ++ begun ++ [.put 5, .done 0])

/-- A write of `[1, 2]` in two pieces while the send of `[9]` waits for the lock. -/
def sendInTurn {κ : Type} (k : Message → κ) (begun : List SendEvent) :
    List (TaskPool.Event κ SendEvent) :=
  [.spawn (k ⟨[1, 2]⟩), .spawn (k ⟨[9]⟩), .act 0 (.check 0), .act 1 (.check 0)] ++
    acts 0 ([.lock] ++ begun ++ [.put 3, .put 3, .done 0]) ++
    acts 1 ([.lock] ++ begun ++ [.put 5, .done 0])

def aSession : Session := Session.new 0 5 5 5

def aClient : TcpClient := ⟨5, .connected, true⟩

theorem sends_in_turn :
    (∃ p, run sessionSends.step ⟨⟨aSession, {}⟩, []⟩ (sendInTurn id []) = some p ∧
      FramesIntact p.shared.wire p.tasks) ∧
    ∃ p, run clientSends.step ⟨⟨aClient, {}⟩, []⟩ (sendInTurn (SendKind.send, ·) [.writable]) = some p ∧
      FramesIntact p.shared.wire p.tasks :=
  have h := sends_keep_frames_intact aSession aClient
  ⟨⟨_, rfl, h.1 (sendInTurn id []) _ (by decide) rfl⟩,
    ⟨_, rfl, h.2 (sendInTurn (SendKind.send, ·) [.writable]) _ (by decide) rfl⟩⟩

/-- After the torn frame the peer parses an empty message, which nobody sent, and never gets `[9]`, whose
send returned `Ok`. -/
theorem send_behind_torn_frame :
    (∃ p, run sessionSends.step ⟨⟨aSession, {}⟩, []⟩ (sendBehindTorn id []) = some p ∧
      p.tasks[1]? = some ⟨.send, ⟨[9]⟩, .returned (.ok ())⟩ ∧
      p.shared.wire.written = [0, 0, 0, 0, 0, 0, 1, 9] ∧ frames p.shared.wire.written = [⟨[]⟩] ∧
      ¬ FramesIntact p.shared.wire p.tasks) ∧
    ∃ p, run clientSends.step ⟨⟨aClient, {}⟩, []⟩ (sendBehindTorn (SendKind.send, ·) [.writable]) =
        some p ∧
      p.tasks[1]? = some ⟨.send, ⟨[9]⟩, .returned (.ok ())⟩ ∧
      p.shared.wire.written = [0, 0, 0, 0, 0, 0, 1, 9] ∧ frames p.shared.wire.written = [⟨[]⟩] ∧
      ¬ FramesIntact p.shared.wire p.tasks := by
  refine ⟨⟨_, rfl, by decide, by decide, by decide, ?_⟩, _, rfl, by decide, by decide, by decide, ?_⟩
  · intro h
    exact absurd h.sent (by decide)
  · intro h
    exact absurd h.sent (by decide)

end NetworkSystem
