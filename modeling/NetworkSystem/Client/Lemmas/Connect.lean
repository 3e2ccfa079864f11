import NetworkSystem.Client.TcpClient

/-!
# What the calls of a client leave behind

The client after each call, in terms of the outcome of the attempts. A failing attempt writes only the
state, and the exits of `reconnect` settle it.
-/

namespace NetworkSystem

open Steps

section

variable {E F T U : Type} {x : Except E T} {f : E → F} {t : T} {u : U}

theorem mapError_eq_ok : x.mapError f = .ok t ↔ x = .ok t := by
  cases x <;> simp [Except.mapError]

theorem mapError_bind_eq_ok {g : T → Except F U} : (x.mapError f >>= g) = .ok u ↔ ∃ t, x = .ok t ∧ g t = .ok u := by
  cases x <;> simp [Except.mapError, bind, Except.bind]

theorem isOk_iff : x.isOk = true ↔ ∃ t, x = .ok t := by
  cases x <;> simp [Except.isOk, Except.toBool]

theorem isOk_unit {x : Except E Unit} : x.isOk = true ↔ x = .ok () := by
  cases x <;> simp [Except.isOk, Except.toBool]

end

namespace Client

/-- The client that holds a new stream. -/
def established (c : Client) : Client := { c with stream := true, state := .connected }

variable {A : Type} {parse : String → Except String A} {c c' : Client} {net : Attempt}
  {attempts : Attempts} {state : ClientState}

/-! ## One attempt -/

@[simp]
theorem reaches_setState : (c.setState state).reaches parse net = c.reaches parse net := rfl

/-- An attempt succeeds exactly where every step of it does. -/
theorem establish_eq_ok : c.establish parse net = .ok () ↔ c.reaches parse net = true := by
  unfold establish reaches
  rw [mapError_bind_eq_ok, Bool.and_eq_true, Bool.and_eq_true, isOk_iff]
  cases net.dial with
  | timedOut => simp [throw, throwThe, MonadExceptOf.throw]
  | failed e => simp [throw, throwThe, MonadExceptOf.throw]
  | connected =>
      cases c.config.keepAlive with
      | none => simp [pure, Except.pure]
      | some interval => simp [mapError_bind_eq_ok, mapError_eq_ok, isOk_unit, Unique.exists_iff, and_assoc]

theorem establish_eq_error (h : c.reaches parse net = false) : ∃ e, c.establish parse net = .error e := by
  cases he : c.establish parse net with
  | error e => exact ⟨e, rfl⟩
  | ok u =>
      have hreaches := establish_eq_ok.mp he
      rw [h] at hreaches
      cases hreaches

/-- The attempt is let past the check of the state. -/
def attemptAdmitted (c : Client) (isReconnect : Bool) : Bool := isReconnect || c.admitsConnect

theorem connectInternal_admitted {isReconnect : Bool} (h : c.attemptAdmitted isReconnect = true) :
    c.connectInternal parse isReconnect net =
      match (c.setState (if isReconnect then .reconnecting else .connecting)).establish parse net with
      | .error e => (.error e, c.setState (if isReconnect then .reconnecting else .connecting))
      | .ok () => (.ok (), c.established) := by
  unfold connectInternal
  rw [if_neg]
  · rfl
  · revert h
    unfold attemptAdmitted admitsConnect
    cases isReconnect <;> cases c.state <;> decide

theorem connectInternal_reaches {isReconnect : Bool} (h : c.attemptAdmitted isReconnect = true)
    (hnet : c.reaches parse net = true) :
    c.connectInternal parse isReconnect net = (.ok (), c.established) := by
  rw [connectInternal_admitted h, establish_eq_ok.mpr (by rwa [reaches_setState])]

theorem connectInternal_fails {isReconnect : Bool} (h : c.attemptAdmitted isReconnect = true)
    (hnet : c.reaches parse net = false) :
    ∃ e, c.connectInternal parse isReconnect net =
      (.error e, c.setState (if isReconnect then .reconnecting else .connecting)) := by
  obtain ⟨e, he⟩ := establish_eq_error (c := c.setState (if isReconnect then .reconnecting else .connecting))
    (by rwa [reaches_setState])
  exact ⟨e, by rw [connectInternal_admitted h, he]⟩

theorem connect_refused (h : c.admitsConnect = false) :
    c.connect parse net = (.error (.invalidState "Client is already connected or connecting"), c) := by
  unfold connect connectInternal
  rw [if_pos]
  revert h
  unfold admitsConnect
  cases c.state <;> decide

/-! ## `reconnect` -/

/-- The attempts that the loop has left: with `left` to go it makes those from number
`maxAttempts + 1 - left` on. -/
def reachesWithin (parse : String → Except String A) (c : Client) (attempts : Attempts)
    (maxAttempts left : Nat) : Bool :=
  (List.range left).any fun i => c.reaches parse (attempts.net (maxAttempts - i))

theorem reachesWithin_succ {maxAttempts left : Nat} :
    c.reachesWithin parse attempts maxAttempts (left + 1) =
      (c.reachesWithin parse attempts maxAttempts left || c.reaches parse (attempts.net (maxAttempts - left))) := by
  unfold reachesWithin
  rw [List.range_succ, List.any_append, List.any_cons, List.any_nil, Bool.or_false]

/-- Counted from the last attempt or from the first, the attempts are the same. -/
theorem reachesWithin_all : c.reachesWithin parse attempts c.config.maxReconnectAttempts
    c.config.maxReconnectAttempts = c.reachesAgain parse attempts := by
  unfold reachesWithin reachesAgain
  rw [Bool.eq_iff_iff, List.any_eq_true, List.any_eq_true]
  constructor
  · rintro ⟨i, hi, hnet⟩
    rw [List.mem_range] at hi
    refine ⟨c.config.maxReconnectAttempts - i - 1, List.mem_range.mpr (by omega), ?_⟩
    rwa [show c.config.maxReconnectAttempts - i - 1 + 1 = c.config.maxReconnectAttempts - i by omega]
  · rintro ⟨i, hi, hnet⟩
    rw [List.mem_range] at hi
    refine ⟨c.config.maxReconnectAttempts - (i + 1), List.mem_range.mpr (by omega), ?_⟩
    rwa [show c.config.maxReconnectAttempts - (c.config.maxReconnectAttempts - (i + 1)) = i + 1 by omega]

/-- How a reconnect ends: with a new stream, or disconnected and with the stream it began with. -/
inductive ReconnectEnds (c : Client) (reaches : Bool) (r : Reconnected) : Prop where
  | reached (hreaches : reaches = true) (hresult : r.result = .ok ()) (hclient : r.client = c.established)
  | failed (e : String) (hreaches : reaches = false) (hresult : r.result = .error (.connection e))
      (hclient : r.client = c.setState .disconnected)

/-- The induction is on the attempts that are left; an attempt that fails changes only the state. -/
theorem reconnectLoop_ends {maxAttempts : Nat} : ∀ (left : Nat) (delayMs : UInt64) (c : Client),
    left ≤ maxAttempts →
      ReconnectEnds c (c.reachesWithin parse attempts maxAttempts left)
        (c.reconnectLoop parse attempts maxAttempts left delayMs)
  | 0, _, _, _ => .failed _ rfl rfl rfl
  | left + 1, delayMs, c, hleft => by
      have hadmitted : c.attemptAdmitted true = true := rfl
      rw [reachesWithin_succ]
      unfold reconnectLoop
      cases hnet : c.reaches parse (attempts.net (maxAttempts - left)) with
      | true =>
          simp only [connectInternal_reaches hadmitted hnet, Bool.or_true]
          exact .reached rfl rfl rfl
      | false =>
          obtain ⟨e, he⟩ := connectInternal_fails hadmitted hnet
          simp only [he, Bool.or_false, ↓reduceIte]
          split
          · -- the last attempt: none is left
            have hlast : left = 0 := by omega
            subst hlast
            exact .failed _ rfl rfl rfl
          · have hrest : left ≤ maxAttempts := by omega
            cases reconnectLoop_ends left (min (delayMs * 2) maxDelayMs) (c.setState .reconnecting) hrest with
            | reached hreaches hresult hclient => exact .reached hreaches hresult hclient
            | failed e hreaches hresult hclient => exact .failed e hreaches hresult hclient

theorem reconnect_ends (parse : String → Except String A) (c : Client) (attempts : Attempts) :
    ReconnectEnds c (c.reachesAgain parse attempts) (c.reconnect parse attempts) := by
  rw [← reachesWithin_all]
  exact reconnectLoop_ends _ _ _ (Nat.le_refl _)

/-! ## `send_with_reconnect` and `receive_with_reconnect` -/

/-- The client after a call that reconnects when it loses the connection: nothing happens to it, or what
`reconnect` does. -/
theorem withReconnect_client {T : Type} {first retry : Client → Option (Except NetworkError T)}
    {result : Except NetworkError T} (h : c.withReconnect parse first attempts retry = some (result, c')) :
    c.loses (first c) = false ∧ c' = c ∨
      c.loses (first c) = true ∧ c' = (c.reconnect parse attempts).client := by
  unfold withReconnect at h
  cases hfirst : first c with
  | none => rw [hfirst] at h; cases h
  | some r =>
      rw [hfirst] at h
      cases r with
      | ok value =>
          simp only [Option.some.injEq, Prod.mk.injEq] at h
          exact Or.inl ⟨by simp [loses], h.2.symm⟩
      | error e =>
          simp only at h
          split at h
          · rename_i hlost
            refine Or.inr ⟨hlost, ?_⟩
            cases hresult : (c.reconnect parse attempts).result with
            | error e' =>
                rw [hresult] at h
                simp only [Option.some.injEq, Prod.mk.injEq] at h
                exact h.2.symm
            | ok u =>
                rw [hresult] at h
                obtain ⟨_, -, hr⟩ := Option.map_eq_some_iff.mp h
                simp only [Prod.mk.injEq] at hr
                exact hr.2.symm
          · rename_i hkept
            simp only [Option.some.injEq, Prod.mk.injEq] at h
            exact Or.inl ⟨Bool.eq_false_of_not_eq_true hkept, h.2.symm⟩

/-- A call that waits for ever after its reconnect has reached the server. -/
theorem withReconnect_unfinished {T : Type} {first retry : Client → Option (Except NetworkError T)}
    (h : c.withReconnect parse first attempts retry = none) (hlost : c.loses (first c) = true) :
    c.reachesAgain parse attempts = true := by
  unfold withReconnect at h
  cases hfirst : first c with
  | none => simp [loses, hfirst] at hlost
  | some r =>
      rw [hfirst] at h hlost
      cases r with
      | ok value => cases h
      | error e =>
          simp only [loses] at hlost
          simp only [hlost, ↓reduceIte] at h
          cases reconnect_ends parse c attempts with
          | reached hreaches => exact hreaches
          | failed _ _ hresult =>
              rw [hresult] at h
              cases h

end Client

end NetworkSystem
