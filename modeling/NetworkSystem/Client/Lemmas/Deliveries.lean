import NetworkSystem.Client.Deliveries
import NetworkSystem.Wire.Lemmas.OneCall

/-!
# What the calls of a client leave on its connections

Every connection is intact between the calls, with no frame in flight, and the frames that are out are those of the
calls that returned `Ok`. A retry begins on a connection of its own.
-/

namespace NetworkSystem

open FrameWriter Steps

theorem SendStage.ended_eq {stage : SendStage} {result : Option (Except NetworkError Unit)}
    (h : stage.ended = some result) :
    stage.early = false ∧ stage.holds = false ∧ stage.sent = (result == some (.ok ())) := by
  cases stage with
  | returned r =>
      obtain rfl := Option.some.inj h
      cases r <;> exact ⟨rfl, rfl, rfl⟩
  | dropped =>
      obtain rfl := Option.some.inj h
      exact ⟨rfl, rfl, rfl⟩
  | _ => cases h

namespace ClientConnections

/-- The frames of `x.sent` are out, and nothing else but the beginnings of torn frames. -/
structure Delivered (x : ClientConnections) : Prop where
  intact : ∀ w ∈ x.wires, Intact messageCode w
  free : ∀ w ∈ x.wires, w.inFlight = none
  sent : x.wires.flatMap Writer.delivered = x.sent

variable {x y : ClientConnections} {message : Message} {kind : SendKind} {events : List SendEvent}
  {result : Option (Except NetworkError Unit)} {c : Client}

theorem delivered_withConfig (address : String) (config : ClientConfig) : (withConfig address config).Delivered where
  intact := by simp [withConfig, wires, Intact.init]
  free := by simp [withConfig, wires]
  sent := rfl

/-- The frame parsers get the messages of the calls that returned `Ok`. -/
theorem Delivered.received (h : x.Delivered) : x.received = x.sent := by
  rw [← h.sent, ClientConnections.received]
  refine List.flatMap_congr fun w hw => ?_
  rcases (h.intact w hw).parse with hparse | ⟨f, hf, _⟩
  · exact hparse
  · rw [h.free w hw] at hf
    cases hf

theorem Delivered.withStream (h : x.Delivered) (c : Client) : (x.withStream c).Delivered where
  intact := by
    intro w hw
    rcases List.mem_append.mp hw with hw | hw
    · exact h.intact w hw
    · obtain rfl := List.mem_singleton.mp hw
      exact Intact.init
  free := by
    intro w hw
    rcases List.mem_append.mp hw with hw | hw
    · exact h.free w hw
    · obtain rfl := List.mem_singleton.mp hw
      rfl
  sent := by
    rw [wires, List.flatMap_append]
    exact (List.append_nil _).trans h.sent

/-! ## One send -/

theorem record_eq : x.record message result =
    { x with sent := x.sent ++ if result == some (.ok ()) then [message] else [] } := by
  rcases result with _ | _ | _ <;> simp [record]

/-- A send that is over has put its frame on the current connection exactly if it returned `Ok`. -/
theorem Delivered.send (h : x.Delivered) (hclean : x.wire.torn = true → ∀ e ∈ events, e.writes = false)
    (hs : x.send kind message events = some (result, y)) : (y.record message result).Delivered := by
  obtain ⟨⟨io, c⟩, hr, hend⟩ := Option.bind_eq_some_iff.mp hs
  obtain ⟨r, hstage, hy⟩ := Option.map_eq_some_iff.mp hend
  cases hy
  obtain ⟨he, hh, hsent⟩ := SendStage.ended_eq hstage
  have hmem : x.wire ∈ x.wires := by simp [wires]
  obtain ⟨hw, hfree, hd⟩ := TcpClient.send_alone (h.intact _ hmem) (h.free _ hmem) hclean hr he hh
  have hpast : ∀ w ∈ x.past, w ∈ x.wires := fun w hw => List.mem_append_left _ hw
  rw [record_eq]
  refine ⟨?_, ?_, ?_⟩
  · simp only [wires, List.forall_mem_append, List.forall_mem_singleton]
    exact ⟨fun w hw => h.intact w (hpast w hw), hw⟩
  · simp only [wires, List.forall_mem_append, List.forall_mem_singleton]
    exact ⟨fun w hw => h.free w (hpast w hw), hfree⟩
  · rw [← h.sent, ← hsent]
    simp [wires, hd]

/-! ## The calls -/

variable {A : Type} {parse : String → Except String A} {attempts : Attempts} {first retry : List SendEvent}
  {e : ConnectionCall}

/-- What happens to the connections besides the sends: nothing, or a new one is made. -/
inductive Moves (x : ClientConnections) : ClientConnections → Prop
  | stays (c : Client) : Moves x { x with client := c }
  | streams (c : Client) : Moves x (x.withStream c)

theorem connect_moves {net : Attempt} : x.Moves (x.connect parse net) := by
  unfold connect
  split
  · exact .streams _
  · exact .stays _

/-- A reconnect gives up the connection only for a new one. -/
theorem reconnect_cases (parse : String → Except String A) (x : ClientConnections) (attempts : Attempts) :
    ((x.client.reconnect parse attempts).result = .ok () ∧
        x.reconnect parse attempts = (.ok (), x.withStream (x.client.reconnect parse attempts).client)) ∨
      ∃ e, (x.client.reconnect parse attempts).result = .error e ∧
        x.reconnect parse attempts = (.error e, { x with client := (x.client.reconnect parse attempts).client }) := by
  cases hresult : (x.client.reconnect parse attempts).result with
  | ok u => exact Or.inl ⟨rfl, by simp only [reconnect, hresult]⟩
  | error e => exact Or.inr ⟨e, rfl, by simp only [reconnect, hresult]⟩

theorem reconnect_moves : x.Moves (x.reconnect parse attempts).2 := by
  rcases reconnect_cases parse x attempts with ⟨_, hr⟩ | ⟨e, _, hr⟩
  · rw [hr]; exact .streams _
  · rw [hr]; exact .stays _

/-- The call is one send, a send that fails and a reconnect that fails, or a send that fails and another on a connection
of its own. -/
inductive SendsAgain (x : ClientConnections) (message : Message) (first retry : List SendEvent)
    (result : Option (Except NetworkError Unit)) (y : ClientConnections) : Prop
  | once (h : x.send .send message first = some (result, y))
  | lost {z : ClientConnections} {e e' : NetworkError} {c : Client}
      (h : x.send .send message first = some (some (.error e), z)) (hresult : result = some (.error e'))
      (hy : y = { z with client := c })
  | again {z : ClientConnections} {e : NetworkError} {c : Client}
      (h : x.send .send message first = some (some (.error e), z))
      (hretry : (z.withStream c).send .send message retry = some (result, y))

theorem sendWithReconnect_cases (hs : x.sendWithReconnect parse message first attempts retry = some (result, y)) :
    x.SendsAgain message first retry result y := by
  unfold sendWithReconnect at hs
  split at hs
  · rename_i e z hfirst
    split at hs
    · rcases reconnect_cases parse z attempts with ⟨_, hr⟩ | ⟨e', _, hr⟩
      · rw [hr] at hs
        exact .again hfirst hs
      · rw [hr] at hs
        cases hs
        exact .lost hfirst rfl rfl
    · cases hs
      exact .once hfirst
  · exact .once hs

theorem receiveWithReconnect_moves {first retry : Receiving} {received : Except NetworkError Message}
    (hs : x.receiveWithReconnect parse first attempts retry = some (received, y)) : x.Moves y := by
  unfold receiveWithReconnect at hs
  split at hs
  · cases hs
  · cases hs; exact .stays _
  · split at hs
    · rcases reconnect_cases parse x attempts with ⟨_, hr⟩ | ⟨e', _, hr⟩
      · rw [hr] at hs
        obtain ⟨_, _, hy⟩ := Option.map_eq_some_iff.mp hs
        cases hy
        exact .streams _
      · rw [hr] at hs
        cases hs
        exact .stays _
    · cases hs; exact .stays _

/-- Everything that a call can do to the connections. -/
inductive Call (x : ClientConnections) : ConnectionCall → ClientConnections → Prop
  | moves {call : ClientCall} {y : ClientConnections} (h : x.Moves y) : Call x (.call call) y
  | send {kind : SendKind} {message : Message} {events : List SendEvent} {result : Option (Except NetworkError Unit)}
      {y : ClientConnections} (h : x.send kind message events = some (result, y)) :
      Call x (.send kind message events) (y.record message result)
  | sendWithReconnect {message : Message} {first retry : List SendEvent} {attempts : Attempts}
      {result : Option (Except NetworkError Unit)} {y : ClientConnections}
      (h : x.SendsAgain message first retry result y) :
      Call x (.call (.sendWithReconnect message first attempts retry)) (y.record message result)

theorem step_cases (hs : x.step parse e = some y) : x.Call e y := by
  cases e with
  | send kind message events =>
      obtain ⟨⟨result, z⟩, hsend, rfl⟩ := Option.map_eq_some_iff.mp hs
      exact .send hsend
  | call call =>
      cases call with
      | connect net => cases hs; exact .moves connect_moves
      | disconnect => cases hs; exact .moves (.stays _)
      | reconnect attempts => cases hs; exact .moves reconnect_moves
      | sendWithReconnect message first attempts retry =>
          obtain ⟨⟨result, z⟩, hsend, rfl⟩ := Option.map_eq_some_iff.mp hs
          exact .sendWithReconnect (sendWithReconnect_cases hsend)
      | receiveWithReconnect first attempts retry =>
          obtain ⟨⟨received, z⟩, hreceive, rfl⟩ := Option.map_eq_some_iff.mp hs
          exact .moves (receiveWithReconnect_moves hreceive)

theorem Delivered.moves (h : x.Delivered) (hm : x.Moves y) : y.Delivered := by
  cases hm with
  | stays c => exact ⟨h.intact, h.free, h.sent⟩
  | streams c => exact h.withStream c

theorem Delivered.step (h : x.Delivered) (hclean : x.CleanCall e) (hs : x.step parse e = some y) : y.Delivered := by
  cases step_cases hs with
  | moves hm => exact h.moves hm
  | send hsend => exact h.send hclean hsend
  | sendWithReconnect hsend =>
      cases hsend with
      | once hfirst => exact h.send hclean hfirst
      | @lost z e e' c hfirst hresult hy =>
          have hfailed : z.Delivered := h.send hclean hfirst
          rw [hresult, hy]
          exact hfailed.moves (.stays c)
      | @again z e c hfirst hretry =>
          -- the retry is the first call on its connection
          have hfailed : z.Delivered := h.send hclean hfirst
          exact (hfailed.withStream c).send (fun htorn => by cases htorn) hretry

/-! ## What the calls record -/

theorem Moves.sent (h : x.Moves y) : y.sent = x.sent := by cases h <;> rfl

theorem send_sent (hs : x.send kind message events = some (result, y)) : y.sent = x.sent := by
  obtain ⟨s, _, hend⟩ := Option.bind_eq_some_iff.mp hs
  obtain ⟨r, _, hy⟩ := Option.map_eq_some_iff.mp hend
  cases hy
  rfl

theorem SendsAgain.sent (h : x.SendsAgain message first retry result y) : y.sent = x.sent := by
  cases h with
  | once hfirst => exact send_sent hfirst
  | @lost z e e' c hfirst _ hy =>
      have hfailed : z.sent = x.sent := send_sent hfirst
      rw [hy]
      exact hfailed
  | @again z e c hfirst hretry =>
      have hfailed : z.sent = x.sent := send_sent hfirst
      exact (send_sent hretry).trans hfailed

theorem record_sent (h : y.sent = x.sent) :
    ∃ ms, (y.record message result).sent = x.sent ++ ms ∧ ms.Sublist [message] := by
  rw [record_eq, ← h]
  exact ⟨_, rfl, by split <;> simp⟩

/-- A call records its message at most once. -/
theorem step_sent (hs : x.step parse e = some y) : ∃ ms, y.sent = x.sent ++ ms ∧ ms.Sublist e.message.toList := by
  cases step_cases hs with
  | moves hm => exact ⟨[], by rw [List.append_nil, hm.sent], List.nil_sublist _⟩
  | send hsend => exact record_sent (send_sent hsend)
  | sendWithReconnect hsend => exact record_sent hsend.sent

/-- The calls record their messages in the order in which they are made, each at most once. -/
theorem run_sent : ∀ {es : List ConnectionCall} {x y : ClientConnections}, run (step parse) x es = some y →
    ∃ ms, y.sent = x.sent ++ ms ∧ ms.Sublist (es.filterMap ConnectionCall.message)
  | [], x, y, hr => by
      simp only [run_nil, Option.some.injEq] at hr
      subst hr
      exact ⟨[], (List.append_nil _).symm, List.nil_sublist _⟩
  | e :: es, x, y, hr => by
      obtain ⟨z, hs, hr⟩ := run_cons_eq_some.mp hr
      obtain ⟨ms, hms, hsub⟩ := step_sent hs
      obtain ⟨ms', hms', hsub'⟩ := run_sent hr
      refine ⟨ms ++ ms', by rw [hms', hms, List.append_assoc], ?_⟩
      have hcons : (e :: es).filterMap ConnectionCall.message =
          e.message.toList ++ es.filterMap ConnectionCall.message := by
        cases hm : e.message <;> simp [hm]
      rw [hcons]
      exact hsub.append hsub'

end ClientConnections

end NetworkSystem
