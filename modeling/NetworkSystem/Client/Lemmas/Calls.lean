import NetworkSystem.Client.Lemmas.Connect

/-!
# One call of a client

Everything that a call can do to the client, and what it does to the state and to the stream.
-/

namespace NetworkSystem

namespace Client

variable {A : Type} {parse : String → Except String A} {c c' : Client} {e : ClientCall} {net : Attempt}
  {attempts : Attempts}

inductive CallStep (parse : String → Except String A) (c : Client) : ClientCall → Client → Prop where
  | connected {net : Attempt} (hadmitted : c.admitsConnect = true) (hnet : c.reaches parse net = true) :
      CallStep parse c (.connect net) c.established
  | failed {net : Attempt} (hadmitted : c.admitsConnect = true) (hnet : c.reaches parse net = false) :
      CallStep parse c (.connect net) (c.setState .connecting)
  | refused {net : Attempt} (hrefused : c.admitsConnect = false) : CallStep parse c (.connect net) c
  | disconnected : CallStep parse c .disconnect c.disconnect.2
  | reconnected {e : ClientCall} {attempts : Attempts} (he : c.reconnects e = some attempts) :
      CallStep parse c e (c.reconnect parse attempts).client
  | kept {e : ClientCall} (he : c.reconnects e = none) (hcall : ∀ net, e ≠ .connect net) : CallStep parse c e c

theorem connect_eq (hadmitted : c.admitsConnect = true) (hnet : c.reaches parse net = true) :
    c.connect parse net = (.ok (), c.established) :=
  connectInternal_reaches hadmitted hnet

theorem connect_fails (hadmitted : c.admitsConnect = true) (hnet : c.reaches parse net = false) :
    ∃ e, c.connect parse net = (.error e, c.setState .connecting) :=
  connectInternal_fails hadmitted hnet

theorem callStep_connect : CallStep parse c (.connect net) (c.connect parse net).2 := by
  cases hadmitted : c.admitsConnect with
  | false =>
      rw [connect_refused hadmitted]
      exact .refused hadmitted
  | true =>
      cases hnet : c.reaches parse net with
      | true =>
          rw [connect_eq hadmitted hnet]
          exact .connected hadmitted hnet
      | false =>
          obtain ⟨e, he⟩ := connect_fails hadmitted hnet
          rw [he]
          exact .failed hadmitted hnet

theorem callStep_withReconnect {T : Type} {first retry : Client → Option (Except NetworkError T)}
    (he : c.reconnects e = if c.loses (first c) then some attempts else none)
    (hcall : ∀ net, e ≠ .connect net)
    (h : (c.withReconnect parse first attempts retry).map (·.2) = some c') : CallStep parse c e c' := by
  obtain ⟨⟨result, c'⟩, hresult, rfl⟩ := Option.map_eq_some_iff.mp h
  rcases withReconnect_client hresult with ⟨hkept, rfl⟩ | ⟨hlost, rfl⟩
  · exact .kept (by rw [he, hkept, if_neg Bool.false_ne_true]) hcall
  · exact .reconnected (by rw [he, if_pos hlost])

theorem callStep_cases (h : c.callStep parse e = some c') : CallStep parse c e c' := by
  cases e with
  | connect net =>
      cases h
      exact callStep_connect
  | disconnect =>
      cases h
      exact .disconnected
  | reconnect attempts =>
      cases h
      exact .reconnected rfl
  | sendWithReconnect message first attempts retry =>
      exact callStep_withReconnect rfl (fun net => by simp) h
  | receiveWithReconnect first attempts retry =>
      exact callStep_withReconnect rfl (fun net => by simp) h

/-! ## The state -/

theorem reconnect_settled : (c.reconnect parse attempts).client.settled = true := by
  cases reconnect_ends parse c attempts with
  | reached _ _ hclient => rw [hclient]; rfl
  | failed _ _ _ hclient => rw [hclient]; rfl

/-- A settled client stays settled, unless a `connect` that it admits does not reach the server. -/
theorem CallStep.settled_iff (h : CallStep parse c e c') (hc : c.settled = true) :
    c'.settled = true ↔ c.ConnectReaches parse e := by
  cases h with
  | connected _ hnet => exact iff_of_true rfl (fun _ => hnet)
  | failed hadmitted hnet =>
      refine iff_of_false (by simp [settled, setState]) ?_
      intro hreaches
      exact absurd (hnet.symm.trans (hreaches hadmitted)) Bool.false_ne_true
  | refused hrefused =>
      refine iff_of_true hc ?_
      intro hadmitted
      exact absurd (hrefused.symm.trans hadmitted) Bool.false_ne_true
  | disconnected => exact iff_of_true rfl trivial
  | reconnected he =>
      refine iff_of_true reconnect_settled ?_
      cases e with
      | connect net => cases he
      | _ => trivial
  | kept _ hcall =>
      refine iff_of_true hc ?_
      cases e with
      | connect net => exact absurd rfl (hcall net)
      | _ => trivial

/-! ## State and socket -/

/-- A reconnect keeps the agreement of state and stream, unless it fails with a stream held. -/
theorem reconnect_agrees_iff :
    (c.reconnect parse attempts).client.Agrees ↔ (c.stream = true → c.reachesAgain parse attempts = true) := by
  cases reconnect_ends parse c attempts with
  | reached hreaches _ hclient =>
      rw [hclient]
      exact iff_of_true (iff_of_true rfl rfl) (fun _ => hreaches)
  | failed _ hreaches _ hclient =>
      rw [hclient, hreaches]
      cases hstream : c.stream with
      | true => simp [Agrees, setState, hstream]
      | false => simp [Agrees, setState, hstream]

theorem reconnectReaches_of_none (h : c.reconnects e = none) : c.ReconnectReaches parse e := by
  intro attempts hattempts
  rw [h] at hattempts
  cases hattempts

/-- Every call keeps the agreement, unless it comes to a reconnect that fails with a stream held. -/
theorem CallStep.agrees_iff (h : CallStep parse c e c') (hc : c.Agrees) :
    c'.Agrees ↔ c.ReconnectReaches parse e := by
  cases h with
  | connected => exact iff_of_true (iff_of_true rfl rfl) (reconnectReaches_of_none rfl)
  | failed hadmitted =>
      refine iff_of_true ?_ (reconnectReaches_of_none rfl)
      have hstate : c.state ≠ .connected := by
        rintro hconnected
        simp [admitsConnect, hconnected] at hadmitted
      exact iff_of_false (by simp [setState]) (fun hstream => hstate (hc.mpr hstream))
  | refused => exact iff_of_true hc (reconnectReaches_of_none rfl)
  | disconnected =>
      refine iff_of_true ?_ (reconnectReaches_of_none rfl)
      exact iff_of_false (by simp [disconnect]) (by simp [disconnect])
  | reconnected he =>
      rw [reconnect_agrees_iff]
      constructor
      · intro hreaches _ hothers
        rw [he, Option.some.injEq] at hothers
        subst hothers
        exact hreaches
      · exact fun hreaches => hreaches _ he
  | kept he => exact iff_of_true hc (reconnectReaches_of_none he)

theorem reconnectReaches_withReconnect {T : Type} {first retry : Client → Option (Except NetworkError T)}
    (he : c.reconnects e = if c.loses (first c) then some attempts else none)
    (h : (c.withReconnect parse first attempts retry).map (·.2) = none) : c.ReconnectReaches parse e := by
  intro attempts' hattempts _
  rw [he] at hattempts
  split at hattempts
  · rename_i hlost
    cases hattempts
    exact withReconnect_unfinished (Option.map_eq_none_iff.mp h) hlost
  · cases hattempts

/-- A call that does not come to its end has not failed to reconnect. -/
theorem reconnectReaches_of_unfinished (h : c.callStep parse e = none) : c.ReconnectReaches parse e := by
  cases e with
  | connect net => cases h
  | disconnect => cases h
  | reconnect attempts => cases h
  | sendWithReconnect message first attempts retry => exact reconnectReaches_withReconnect rfl h
  | receiveWithReconnect first attempts retry => exact reconnectReaches_withReconnect rfl h

end Client

end NetworkSystem
