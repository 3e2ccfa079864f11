import NetworkSystem.Client.Lemmas.Bare
import NetworkSystem.Client.Lemmas.Calls
import NetworkSystem.Client.Lemmas.Schedule

/-!
# The state of a client over its calls

When a failed connect can be retried, when the state of a client agrees with its socket, what `reconnect` does, and
what a client that reconnects delivers.
-/

namespace NetworkSystem

open FrameWriter Steps Client

variable {A : Type} (parse : String → Except String A)

/-! ## A failed connect -/

/-- In any state that admits a `connect`, the client can be retried after it exactly if it reaches the server. No
call of a sequence returns with the client connecting or reconnecting, if and only if every `connect` that is
admitted reaches the server. -/
theorem client_settles_iff (address : String) (config : ClientConfig) :
    (∀ (c : Client) (net : Attempt), c.admitsConnect = true →
      (c.RetryableAfter parse net ↔ c.reaches parse net = true)) ∧
    ∀ calls : List ClientCall,
      Always (callStep parse) (·.settled = true) (withConfig address config) calls ↔
        Along (callStep parse) (ConnectReaches parse) (withConfig address config) calls := by
  constructor
  · intro c net hadmitted
    unfold RetryableAfter
    cases hnet : c.reaches parse net with
    | true => simp [connect_eq hadmitted hnet]
    | false =>
        obtain ⟨e, he⟩ := connect_fails hadmitted hnet
        simp [he, setState]
  · intro calls
    refine always_iff_along (fun _ h => h) ?_ ?_ ?_ (rfl : (withConfig address config).settled = true)
    · exact fun c e c' hc hs => (callStep_cases hs).settled_iff hc
    · exact fun c e c' hc hreaches hs => ((callStep_cases hs).settled_iff hc).mpr hreaches
    · intro c e _ hs
      cases e with
      | connect net => cases hs
      | _ => trivial

/-- What the parser makes of the one address used below. -/
def parseLoopback (address : String) : Except String (List Nat × Nat) :=
  if address = "127.0.0.1:8080" then .ok ([127, 0, 0, 1], 8080) else .error "invalid socket address syntax"

def oneAttempt : ClientConfig := ⟨30000000000, none, true, 1⟩

def dials (dial : Dial) : Attempt := ⟨dial, .ok (), .ok (), .ok (), .ok ()⟩

def refusedDial : Attempt := dials (.failed "Connection refused (os error 111)")

/-- The dial is refused. The next `connect` is refused by the client, although the server is up by then. -/
theorem refused_connect_blocks_the_next :
    let c := withConfig "127.0.0.1:8080" oneAttempt
    let c' := (c.connect parseLoopback refusedDial).2
    c.admitsConnect = true ∧
    (c.connect parseLoopback refusedDial).1 =
      .error (.connection "Failed to connect: Connection refused (os error 111)") ∧
    c'.state = .connecting ∧
    (c'.connect parseLoopback (dials .connected)).1 =
      .error (.invalidState "Client is already connected or connecting") ∧
    ¬ c.RetryableAfter parseLoopback refusedDial ∧
    ¬ Always (callStep parseLoopback) (·.settled = true) c [.connect refusedDial] := by
  refine ⟨rfl, rfl, rfl, rfl, ?_, ?_⟩
  · intro h
    cases (h _ rfl).1
  · intro h
    cases h.last rfl

/-! ## State and socket -/

/-- After every call of a sequence the client is connected exactly if it holds a stream, if and only if every
reconnect that begins with a stream held reaches the server. -/
theorem client_state_agrees_iff (address : String) (config : ClientConfig) (calls : List ClientCall) :
    Always (callStep parse) Agrees (withConfig address config) calls ↔
      Along (callStep parse) (ReconnectReaches parse) (withConfig address config) calls := by
  have hnew : (withConfig address config).Agrees := iff_of_false (by simp [withConfig]) (by simp [withConfig])
  refine always_iff_along (fun _ h => h) ?_ ?_ ?_ hnew
  · exact fun c e c' hc hs => (callStep_cases hs).agrees_iff hc
  · exact fun c e c' hc hreaches hs => ((callStep_cases hs).agrees_iff hc).mpr hreaches
  · exact fun c e _ hs => reconnectReaches_of_unfinished hs

/-- The client is connected, and `reconnect` fails in its only attempt: the client reports that it is
disconnected and keeps the connection open. -/
theorem failed_reconnect_keeps_stream :
    let c := withConfig "127.0.0.1:8080" oneAttempt
    let calls : List ClientCall := [.connect (dials .connected), .reconnect ⟨fun _ => refusedDial, fun _ => 0⟩]
    run (callStep parseLoopback) c calls = some { c with state := .disconnected, stream := true } ∧
      ¬ Always (callStep parseLoopback) Agrees c calls := by
  have hrun : run (callStep parseLoopback) (withConfig "127.0.0.1:8080" oneAttempt)
      [.connect (dials .connected), .reconnect ⟨fun _ => refusedDial, fun _ => 0⟩] =
        some { withConfig "127.0.0.1:8080" oneAttempt with state := .disconnected, stream := true } := rfl
  refine ⟨hrun, ?_⟩
  intro h
  cases (h.last hrun).mpr rfl

/-! ## The attempts of a reconnect -/

/-- `reconnect` makes its attempts up to the first that reaches the server, with one sleep between two of them, and
ends as the last one does. The sleep after attempt `i` is `min(100 * 2^(i-1), 30000)` ms and the jitter, and none of
its numbers overflows. -/
theorem reconnect_keeps_schedule (c : Client) (attempts : Attempts) :
    c.KeepsSchedule parse attempts (c.reconnect parse attempts) ∧ ∀ i, DelayFits attempts i :=
  ⟨reconnect_keeps parse c attempts, delayFits attempts⟩

example : (withConfig "127.0.0.1:8080" ⟨0, none, true, 3⟩).schedule parseLoopback
    ⟨fun i => if i = 2 then dials .connected else refusedDial, fun _ => 7⟩ =
    [.attempt (.error (.connection "Failed to connect: Connection refused (os error 111)")), .sleep 107,
      .attempt (.ok ())] := by decide

/-! ## Delivery over reconnects -/

/-- In every sequence of calls in which no send writes behind a torn frame, the frames that the client puts on its
connections, one connection after another, are exactly those of the messages of the calls that returned `Ok`: in the
order of the calls, at most once each, and none of a call that failed or was dropped, whether it reconnected or not. A
connection that is lost may lose what was put on it. On its connections the client does what it does without them. -/
theorem client_delivers_once (address : String) (config : ClientConfig) (calls : List ConnectionCall)
    (x : ClientConnections)
    (hclean : Along (ClientConnections.step parse) ClientConnections.CleanCall (.withConfig address config) calls)
    (hr : run (ClientConnections.step parse) (.withConfig address config) calls = some x) :
    x.received = x.sent ∧ x.sent.Sublist (calls.filterMap ConnectionCall.message) ∧
      ∀ (call : ClientCall) (c : Client), x.client.callStep parse call = some c →
        ∃ y, x.step parse (.call call) = some y ∧ y.client = c := by
  have hdelivered : x.Delivered :=
    run_preserves (fun _ _ _ h hclean hs => h.step hclean hs)
      (ClientConnections.delivered_withConfig address config) hclean hr
  obtain ⟨ms, hms, hsub⟩ := ClientConnections.run_sent hr
  refine ⟨hdelivered.received, ?_, ?_⟩
  · rw [hms]
    exact hsub
  · intro call c hc
    exact ClientConnections.step_client (hdelivered.free x.wire (by simp [ClientConnections.wires])) hc

/-- A send that goes out whole. -/
def wholeSend (n : Nat) : List SendEvent := [.check 0, .lock, .writable, .put n, .done 0]

/-- The second send is cut off after three bytes, and goes out whole on the connection that is made at the second
attempt. The third is dropped by its caller. -/
def cutOffOnce : List ConnectionCall :=
  [.call (.connect (dials .connected)),
    .send .trySend ⟨[1]⟩ [.check 0, .lock, .tryWrite 5, .done 0],
    .call (.sendWithReconnect ⟨[2]⟩ [.check 0, .lock, .writable, .put 3, .failed "Broken pipe (os error 32)"]
      ⟨fun i => if i = 2 then dials .connected else refusedDial, fun _ => 7⟩ (wholeSend 5)),
    .send .send ⟨[3]⟩ [.check 0, .lock, .drop],
    .call (.sendWithReconnect ⟨[]⟩ (wholeSend 4) ⟨fun _ => refusedDial, fun _ => 0⟩ [])]

theorem client_delivers_once_cut_off :
    ∃ x : ClientConnections,
      run (ClientConnections.step parseLoopback) (.withConfig "127.0.0.1:8080" ⟨0, none, true, 3⟩) cutOffOnce = some x ∧
      x.wires.map Writer.written = [[], [0, 0, 0, 1, 1, 0, 0, 0], [0, 0, 0, 1, 2, 0, 0, 0, 0]] ∧
      x.sent = [⟨[1]⟩, ⟨[2]⟩, ⟨[]⟩] ∧ x.received = x.sent := by
  have hclean : Along (ClientConnections.step parseLoopback) ClientConnections.CleanCall
      (.withConfig "127.0.0.1:8080" ⟨0, none, true, 3⟩) cutOffOnce := by decide +kernel
  have hrun : (run (ClientConnections.step parseLoopback) (.withConfig "127.0.0.1:8080" ⟨0, none, true, 3⟩)
      cutOffOnce).map (fun x => (x.wires.map Writer.written, x.sent)) =
        some ([[], [0, 0, 0, 1, 1, 0, 0, 0], [0, 0, 0, 1, 2, 0, 0, 0, 0]], [⟨[1]⟩, ⟨[2]⟩, ⟨[]⟩]) := by decide +kernel
  obtain ⟨x, hr, hx⟩ := Option.map_eq_some_iff.mp hrun
  obtain ⟨hwritten, hsent⟩ := Prod.mk.inj hx
  exact ⟨x, hr, hwritten, hsent, (client_delivers_once parseLoopback _ _ _ x hclean hr).1⟩

end NetworkSystem
