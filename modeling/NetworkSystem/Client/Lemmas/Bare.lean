import NetworkSystem.Client.Lemmas.Deliveries

/-!
# The client of the connections

A send takes no notice of what was put on the connection before it, only of the frame in flight. So on its connections
a client does what it does without them.
-/

namespace NetworkSystem

open FrameWriter Steps

/-- The connection as a call sees it. -/
def Wire.bare (w : Wire) : Wire := { inFlight := w.inFlight }

def ClientWire.bare (io : ClientWire) : ClientWire := { io with wire := io.wire.bare }

theorem Wire.begin_bare (w : Wire) (m : Message) (data : Bytes) :
    (w.bare.begin m data).map bare = (w.begin m data).map bare := by
  unfold Writer.begin bare
  cases w.inFlight <;> rfl

theorem Wire.put_bare (w : Wire) (k : Nat) : (w.bare.put k).map bare = (w.put k).map bare := by
  unfold Writer.put bare
  cases w.inFlight with
  | none => rfl
  | some f => dsimp only; split <;> rfl

theorem Wire.finish_bare (w : Wire) : w.bare.finish.map bare = w.finish.map bare := by
  unfold Writer.finish bare
  cases w.inFlight with
  | none => rfl
  | some f => dsimp only; split <;> rfl

theorem Wire.abandon_bare (w : Wire) : w.bare.abandon.map bare = w.abandon.map bare := by
  unfold Writer.abandon bare
  cases w.inFlight with
  | none => rfl
  | some f => dsimp only; split <;> rfl

/-- What a call makes of a step of the connection. -/
theorem Wire.map_bare {o o' : Option Wire} (h : o.map bare = o'.map bare) (client : TcpClient) (c : SendCall) :
    ((o.map fun w => (w, c)).map fun r => ((⟨client, r.1⟩ : ClientWire), r.2)).map (Prod.map ClientWire.bare id) =
      ((o'.map fun w => (w, c)).map fun r => (⟨client, r.1⟩, r.2)).map (Prod.map ClientWire.bare id) := by
  have hcall := congrArg (Option.map fun w => ((⟨client, w⟩ : ClientWire), c)) h
  simp only [Option.map_map] at hcall ⊢
  exact hcall

theorem writeAll_bare (texts : WriteTexts) (client : TcpClient) (w : Wire) (c : SendCall) (e : SendEvent) :
    ((writeAll texts w.bare c e).map fun r => ((⟨client, r.1⟩ : ClientWire), r.2)).map (Prod.map ClientWire.bare id) =
      ((writeAll texts w c e).map fun r => (⟨client, r.1⟩, r.2)).map (Prod.map ClientWire.bare id) := by
  cases e with
  | put k => exact Wire.map_bare (w.put_bare k) client c
  | done now => exact Wire.map_bare w.finish_bare client _
  | timedOut => exact Wire.map_bare w.abandon_bare client _
  | failed err => exact Wire.map_bare w.abandon_bare client _
  | drop => exact Wire.map_bare w.abandon_bare client _
  | _ => rfl

/-- A step of a call sees no more of the connection than the frame in flight. -/
theorem TcpClient.sendStep_bare (io : ClientWire) (c : SendCall) (e : SendEvent) :
    (TcpClient.sendStep io.bare c e).map (Prod.map ClientWire.bare id) =
      (TcpClient.sendStep io c e).map (Prod.map ClientWire.bare id) := by
  have hclient : io.bare.client = io.client := rfl
  have hflight : io.bare.wire.inFlight = io.wire.inFlight := rfl
  unfold TcpClient.sendStep
  cases c.stage with
  | entered =>
      cases e with
      | check now =>
          dsimp only
          rw [TcpClient.sendCheck, TcpClient.sendCheck, hclient]
          split
          · rfl
          · split <;> rfl
      | _ => rfl
  | locking data =>
      cases e with
      | lock =>
          dsimp only
          rw [hflight, hclient]
          split
          · rfl
          · split
            · rfl
            · exact Wire.map_bare (io.wire.begin_bare c.message data) io.client _
      | _ => rfl
  | waiting =>
      cases e with
      | notWritable err => cases err <;> exact Wire.map_bare io.wire.abandon_bare io.client _
      | drop => exact Wire.map_bare io.wire.abandon_bare io.client _
      | _ => rfl
  | trying =>
      cases e with
      | tryWrite n =>
          cases n with
          | zero => rfl
          | succ n => exact Wire.map_bare (io.wire.put_bare _) io.client _
      | wouldBlock => exact Wire.map_bare io.wire.abandon_bare io.client _
      | tryFailed err => exact Wire.map_bare io.wire.abandon_bare io.client _
      | _ => rfl
  | writing => exact writeAll_bare c.kind.texts io.client io.wire c e
  | _ => rfl
/-! ## The calls -/

theorem TcpClient.sends_bare {io io' : ClientWire} (h : io.bare = io'.bare) (c : SendCall) (events : List SendEvent) :
    (run (fun s e => TcpClient.sendStep s.1 s.2 e) (io, c) events).map (Prod.map ClientWire.bare id) =
      (run (fun s e => TcpClient.sendStep s.1 s.2 e) (io', c) events).map (Prod.map ClientWire.bare id) := by
  refine run_congr (f := Prod.map ClientWire.bare id) ?_ events (Prod.ext h rfl)
  rintro ⟨io, c⟩ ⟨io', c'⟩ e hsame
  obtain ⟨hio, rfl⟩ : io.bare = io'.bare ∧ c = c' := Prod.mk.inj hsame
  exact (TcpClient.sendStep_bare io c e).symm.trans ((congrArg (fun s => (TcpClient.sendStep s c e).map _) hio).trans
    (TcpClient.sendStep_bare io' c e))

namespace ClientConnections

variable {x y : ClientConnections} {message : Message} {events : List SendEvent} {c : Client}
  {result : Except NetworkError Unit}

/-- On a connection without a frame in flight a send ends as on a new one. -/
theorem send_client (hfree : x.wire.inFlight = none) (h : x.client.send message events = some result) :
    ∃ y, x.send .send message events = some (some result, y) ∧ y.client = x.client := by
  obtain ⟨⟨io, call⟩, hr, hend⟩ := Option.bind_eq_some_iff.mp h
  have hbare : ClientWire.bare ⟨x.client.connection, {}⟩ = ClientWire.bare ⟨x.client.connection, x.wire⟩ := by
    simp [ClientWire.bare, Wire.bare, hfree]
  have hsame := TcpClient.sends_bare hbare (SendCall.start (.send, message)) events
  rw [hr, Option.map_some] at hsame
  obtain ⟨⟨io', call'⟩, hr', hcall⟩ := Option.map_eq_some_iff.mp hsame.symm
  obtain ⟨_, rfl⟩ : io'.bare = io.bare ∧ call' = call := Prod.mk.inj hcall
  have hended : call'.stage.ended = some (some result) := by
    cases hstage : call'.stage with
    | returned r =>
        simp only [hstage, Option.some.injEq] at hend
        rw [hend]; rfl
    | _ => simp [hstage] at hend
  exact ⟨{ x with wire := io'.wire }, by rw [send, hr', Option.bind_some, hended, Option.map_some], rfl⟩

variable {A : Type} {parse : String → Except String A}

theorem record_client (x : ClientConnections) (message : Message) (result : Option (Except NetworkError Unit)) :
    (x.record message result).client = x.client := by rw [record_eq]

theorem connect_client (x : ClientConnections) (net : Attempt) :
    (x.connect parse net).client = (x.client.connect parse net).2 := by
  unfold connect
  cases hc : x.client.connect parse net with
  | mk result c => cases result <;> rfl

theorem reconnect_client (x : ClientConnections) (attempts : Attempts) :
    (x.reconnect parse attempts).2.client = (x.client.reconnect parse attempts).client := by
  rcases reconnect_cases parse x attempts with ⟨_, hr⟩ | ⟨e, _, hr⟩
  · rw [hr]; rfl
  · rw [hr]

theorem sendWithReconnect_client {first retry : List SendEvent} {attempts : Attempts} (hfree : x.wire.inFlight = none)
    (h : x.client.sendWithReconnect parse message first attempts retry = some (result, c)) :
    ∃ y, x.sendWithReconnect parse message first attempts retry = some (some result, y) ∧ y.client = c := by
  unfold Client.sendWithReconnect Client.withReconnect at h
  dsimp only at h
  cases hfirst : x.client.send message first with
  | none => rw [hfirst] at h; cases h
  | some r =>
      obtain ⟨y, hs, hy⟩ := send_client hfree hfirst
      rw [hfirst] at h
      unfold ClientConnections.sendWithReconnect
      rw [hs]
      cases r with
      | ok u =>
          cases h
          exact ⟨y, rfl, hy⟩
      | error e =>
          dsimp only at h ⊢
          rw [hy]
          split at h
          · rename_i hlost
            rw [if_pos hlost]
            rw [← hy] at h
            rcases reconnect_cases parse y attempts with ⟨hresult, hr⟩ | ⟨e', hresult, hr⟩
            · rw [hr]
              simp only [hresult] at h
              obtain ⟨r, hretry, hrc⟩ := Option.map_eq_some_iff.mp h
              cases hrc
              exact send_client (x := y.withStream _) rfl hretry
            · rw [hr]
              simp only [hresult] at h
              cases h
              exact ⟨_, rfl, rfl⟩
          · rename_i hkept
            rw [if_neg hkept]
            cases h
            exact ⟨y, rfl, hy⟩

theorem receiveWithReconnect_client {first retry : Receiving} {attempts : Attempts}
    {received : Except NetworkError Message}
    (h : x.client.receiveWithReconnect parse first attempts retry = some (received, c)) :
    ∃ y, x.receiveWithReconnect parse first attempts retry = some (received, y) ∧ y.client = c := by
  unfold Client.receiveWithReconnect Client.withReconnect at h
  dsimp only at h
  unfold ClientConnections.receiveWithReconnect
  cases hfirst : x.client.receive first with
  | none => rw [hfirst] at h; cases h
  | some r =>
      rw [hfirst] at h
      cases r with
      | ok m =>
          cases h
          exact ⟨x, rfl, rfl⟩
      | error e =>
          dsimp only at h ⊢
          split at h
          · rename_i hlost
            rw [if_pos hlost]
            rcases reconnect_cases parse x attempts with ⟨hresult, hr⟩ | ⟨e', hresult, hr⟩
            · rw [hr]
              simp only [hresult] at h
              obtain ⟨r, hretry, hrc⟩ := Option.map_eq_some_iff.mp h
              cases hrc
              exact ⟨_, Option.map_eq_some_iff.mpr ⟨_, hretry, rfl⟩, rfl⟩
            · rw [hr]
              simp only [hresult] at h
              cases h
              exact ⟨_, rfl, rfl⟩
          · rename_i hkept
            rw [if_neg hkept]
            cases h
            exact ⟨x, rfl, rfl⟩

/-- On its connections a client does what it does without them. -/
theorem step_client {call : ClientCall} (hfree : x.wire.inFlight = none) (h : x.client.callStep parse call = some c) :
    ∃ y, x.step parse (.call call) = some y ∧ y.client = c := by
  cases call with
  | connect net =>
      cases h
      exact ⟨_, rfl, connect_client x net⟩
  | disconnect =>
      cases h
      exact ⟨_, rfl, rfl⟩
  | reconnect attempts =>
      cases h
      exact ⟨_, rfl, reconnect_client x attempts⟩
  | sendWithReconnect message first attempts retry =>
      obtain ⟨⟨result, c'⟩, hs, rfl⟩ := Option.map_eq_some_iff.mp h
      obtain ⟨y, hy, hc⟩ := sendWithReconnect_client hfree hs
      exact ⟨_, Option.map_eq_some_iff.mpr ⟨_, hy, rfl⟩, (record_client y message _).trans hc⟩
  | receiveWithReconnect first attempts retry =>
      obtain ⟨⟨received, c'⟩, hs, rfl⟩ := Option.map_eq_some_iff.mp h
      obtain ⟨y, hy, hc⟩ := receiveWithReconnect_client hs
      exact ⟨y, Option.map_eq_some_iff.mpr ⟨_, hy, rfl⟩, hc⟩

end ClientConnections

end NetworkSystem
