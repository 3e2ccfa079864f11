import NetworkSystem.Session.Lemmas.Lifecycle
import NetworkSystem.Session.Lemmas.Buffer
import NetworkSystem.Session.Lemmas.Waiting

/-!
# Closing a session, and its buffer

`close` is final for what the session sends and receives. For its state it is only where no `close` begins
after another is over. Whatever the peer sends, the buffer of a receive loop stays short of its guard. The locks of a
session never leave its calls waiting for each other.
-/

namespace NetworkSystem

open TaskPool Steps

/-! ## Input and output -/

/-- In every run of calls on a session, once a `close` has returned: whatever steps follow, the calls of `send`
and `receive` that have returned `Ok` are those that had before. -/
theorem session_close_is_final (now readTimeout writeTimeout idleTimeout : Nat) (incoming : Bytes)
    (es fs : List (TaskPool.Event SessionRequest SessionEvent)) (p p' : Pool SharedSession SessionCall) (i : Nat)
    (hr : run sessionCalls.step (SharedSession.new now readTimeout writeTimeout idleTimeout incoming) es = some p)
    (hclose : p.tasks[i]? = some (.close .returned)) (hr' : run sessionCalls.step p fs = some p') :
    ∀ (j : Nat) call, p'.tasks[j]? = some call → call.completedOk = true → p.tasks[j]? = some call := by
  have hguarded : Guarded p :=
    run_invariant (fun _ _ _ h hs => Guarded.step h hs) (.new _ _ _ _ _) hr
  have hshut : Shut p := hguarded.shut (List.mem_of_getElem? hclose)
  have hkept : Shut p' ∧ ∀ (j : Nat) call, p'.tasks[j]? = some call → call.completedOk = true →
      p.tasks[j]? = some call := by
    refine run_invariant (I := fun q => Shut q ∧ ∀ (j : Nat) call, q.tasks[j]? = some call →
      call.completedOk = true → p.tasks[j]? = some call) ?_ ⟨hshut, fun _ _ hj _ => hj⟩ hr'
    rintro q e q' ⟨hq, hold⟩ hs
    refine ⟨hq.step hs, ?_⟩
    intro j call hj hok
    exact hold j call (hq.no_completion hs hj hok) hok
  exact hkept.2

/-- A whole frame is in the read buffer, and a `receive` has passed its check, when the session is closed. -/
def closedMeanwhile : List (TaskPool.Event SessionRequest SessionEvent) :=
  [.spawn .receive, .act 0 (.receive (.check 0)), .act 0 (.receive .lockBuffer),
    .act 0 (.receive (.lockRead 0 0)), .act 0 (.receive (.read ⟨.ready 10, 0⟩ 1)),
    .spawn .receive, .act 1 (.receive (.check 1)), .spawn .close] ++
  acts 2 (List.replicate 6 (.close .next))

/-- The session is closed, with a frame left in its buffer. -/
def closedWithFrame : SharedSession where
  io :=
    ⟨{ Session.new 0 9 9 9 with
        readHalf := false, writeHalf := false, state := .closed, active := false, lastActivity := 1,
        readBuffer := [0, 0, 0, 1, 8] }, {}⟩
  incoming := []

theorem session_close_is_final_for_buffered_frame :
    ∃ p p', run sessionCalls.step (SharedSession.new 0 9 9 9 [0, 0, 0, 1, 7, 0, 0, 0, 1, 8]) closedMeanwhile =
        some p ∧
      run sessionCalls.step p [.act 1 (.receive .lockBuffer), .act 1 (.receive (.lockRead 0 2))] = some p' ∧
      p.shared = closedWithFrame ∧ ∀ call, p'.tasks[1]? = some call → call.completedOk = false := by
  have hrun : run sessionCalls.step (SharedSession.new 0 9 9 9 [0, 0, 0, 1, 7, 0, 0, 0, 1, 8]) closedMeanwhile =
      some ⟨closedWithFrame, [.receive (.returned (.ok ⟨[7]⟩)), .receive .lockingBuffer, .close .returned]⟩ := by
    decide
  refine ⟨_, _, hrun, rfl, rfl, ?_⟩
  intro call hcall
  cases hok : call.completedOk with
  | false => rfl
  | true =>
      have hbefore := session_close_is_final 0 9 9 9 _ closedMeanwhile
        [.act 1 (.receive .lockBuffer), .act 1 (.receive (.lockRead 0 2))] _ _ 2 hrun rfl rfl 1 call hcall hok
      cases hbefore
      cases hok

/-! ## The state -/

/-- In every run of calls on a session the state moves only forward, from active to closing to closed, if and only
if no `close` begins when another is over. -/
theorem session_state_forward_iff (now readTimeout writeTimeout idleTimeout : Nat) (incoming : Bytes)
    (es : List (TaskPool.Event SessionRequest SessionEvent)) :
    Along sessionCalls.step StateForward
        (SharedSession.new now readTimeout writeTimeout idleTimeout incoming) es ↔
      Along sessionCalls.step BeginsInTime
        (SharedSession.new now readTimeout writeTimeout idleTimeout incoming) es := by
  have hnew := StateTold.new now readTimeout writeTimeout idleTimeout incoming
  refine along_congr ?_ ?_ hnew
  · exact fun p e p' h hbegins hs => h.step hbegins hs
  · exact fun p e h => h.forward_iff

/-- The session is closed as idle, and closed again when the server stops. -/
def closedTwice : List (TaskPool.Event SessionRequest SessionEvent) :=
  (.spawn .close :: acts 0 (List.replicate 6 (.close .next))) ++ [.spawn .close, .act 1 (.close .next)]

theorem session_state_goes_back :
    (∃ p p', run sessionCalls.step (SharedSession.new 0 9 9 9 []) (closedTwice.take 7) = some p ∧
      run sessionCalls.step p (closedTwice.drop 7) = some p' ∧ p.shared.session.state = .closed ∧
      p'.shared.session.state = .closing) ∧
    ¬ Along sessionCalls.step StateForward (SharedSession.new 0 9 9 9 []) closedTwice :=
  ⟨⟨_, _, rfl, rfl, rfl, rfl⟩, by decide⟩

/-! ## The buffer -/

/-- Whatever stream is read in whatever pieces, and whatever the buffer holds at first: after any of its reads the
receive loop of sessions and clients either asks for more, with a buffer shorter than the longest frame, or has
ended for good with a message, `MessageTooLarge`, a timeout, a failed read or the end of the stream. Neither
`receive` ever returns the error of the guard, and in every run of calls on a session, those that are dropped
included, no call waits for a read with a longer buffer. -/
theorem receive_buffer_bounded :
    (∀ assemblyTimeout elapsed pre post buf incoming,
      let r := receiveLoop assemblyTimeout elapsed pre buf incoming
      r.result = none ∧ r.buf.length < 4 + maxMessageSize ∨
        ∃ result, r.result = some result ∧ LoopEnding result ∧
          receiveLoop assemblyTimeout elapsed (pre ++ post) buf incoming = r) ∧
    (∀ (s : Session) incoming call, (s.receive incoming call).1 ≠ some (.error malformedBuffer)) ∧
    (∀ (c : TcpClient) incoming call, (c.receive incoming call).1 ≠ some (.error malformedBuffer)) ∧
    ∀ now readTimeout writeTimeout idleTimeout stream es,
      Always sessionCalls.step ReceivesBounded
        (SharedSession.new now readTimeout writeTimeout idleTimeout stream) es := by
  refine ⟨receiveLoop_asks_or_ended, Session.receive_ne_malformed, TcpClient.receive_ne_malformed, ?_⟩
  intro now readTimeout writeTimeout idleTimeout stream es pre p _ hr
  have hguarded : BufferGuarded p :=
    run_invariant (fun _ _ _ h hs => BufferGuarded.step h hs) (.new _ _ _ _ _) hr
  exact hguarded.bounded

/-! ## Waiting -/

/-- From every state that any interleaving of calls reaches, dropped calls included, the session comes to rest:
whatever the peer and the network do, the calls in progress take at most as many steps as there are bytes under way
and statements left, and when no call can go on, all of them are over and no lock is held: each has returned or was
dropped, or is a `receive` that has panicked. -/
theorem session_comes_to_rest (now readTimeout writeTimeout idleTimeout : Nat) (incoming : Bytes)
    (es : List (TaskPool.Event SessionRequest SessionEvent)) (p : Pool SharedSession SessionCall)
    (hr : run sessionCalls.step (SharedSession.new now readTimeout writeTimeout idleTimeout incoming) es = some p) :
    (∃ fs p', (∀ e ∈ fs, e.IsOwn SessionEvent.goesOn) ∧ run sessionCalls.step p fs = some p' ∧
      Quiet sessionCalls.step (Event.IsOwn SessionEvent.goesOn) p') ∧
    ∀ fs p', (∀ e ∈ fs, e.IsOwn SessionEvent.goesOn) → run sessionCalls.step p fs = some p' →
      fs.length ≤ p.shared.underWay + p.total SessionCall.stepsLeft ∧
      (Quiet sessionCalls.step (Event.IsOwn SessionEvent.goesOn) p' → (∀ t ∈ p'.tasks, t.ended = true) ∧
        p'.shared.writeHeld = false ∧ p'.shared.bufferLocked = false ∧ p'.shared.readLocked = false) := by
  obtain ⟨hrests, hlength⟩ := Program.rests (P := sessionCalls) SessionCall.act_stepsLeft p
  refine ⟨hrests, fun fs p' hfs hr' => ⟨hlength fs p' hfs hr', fun hquiet => ?_⟩⟩
  have hlocked : Locked p' :=
    run_invariant (fun _ _ _ h hs => Locked.step h hs) (.new _ _ _ _ _) (run_append.mpr ⟨p, hr, hr'⟩)
  have hnone : NoneGoesOn p' := fun _ ht _ he => Program.act_none_of_quiet hquiet ht he
  refine ⟨fun _ ht => hnone.ended hlocked ht, ?_, hnone.bufferLocked hlocked, hnone.readLocked hlocked⟩
  rw [SharedSession.writeHeld, hnone.writeLocked hlocked, hnone.inFlight hlocked]
  rfl

/-- A `receive` waits for the peer, a second one for the buffer, and a `close` for the read half. -/
def threeWait : List (TaskPool.Event SessionRequest SessionEvent) :=
  [.spawn .receive, .act 0 (.receive (.check 0)), .act 0 (.receive .lockBuffer), .act 0 (.receive (.lockRead 0 0)),
    .spawn .receive, .act 1 (.receive (.check 0)), .spawn .close] ++ acts 2 (List.replicate 4 (.close .next))

theorem session_of_three_comes_to_rest : ∃ p fs p',
    run sessionCalls.step (SharedSession.new 0 9 9 9 []) threeWait = some p ∧
      p.tasks = [.receive .reading, .receive .lockingBuffer, .close .lockingRead] ∧
      run sessionCalls.step p fs = some p' ∧ ∀ t ∈ p'.tasks, t.ended = true := by
  have hrun : (run sessionCalls.step (SharedSession.new 0 9 9 9 []) threeWait).map (·.tasks) =
      some [.receive .reading, .receive .lockingBuffer, .close .lockingRead] := by decide
  obtain ⟨p, hr, htasks⟩ := Option.map_eq_some_iff.mp hrun
  obtain ⟨⟨fs, p', hfs, hr', hquiet⟩, hrest⟩ := session_comes_to_rest 0 9 9 9 [] threeWait p hr
  exact ⟨p, fs, p', hr, htasks, hr', ((hrest fs p' hfs hr').2 hquiet).1⟩

end NetworkSystem
