import NetworkSystem.Link.Link

/-!
# What the client sends and what the session gets

The sends of a client are the calls of `Wire/Lemmas/Send.lean`, among other calls. What they put on the connection is
what arrives at the session, which takes whole frames off its front.
-/

namespace NetworkSystem

open FrameWriter TaskPool Steps

/-! ## The sends of a client -/

/-- The sends of a client as the only calls. -/
def sharedSends : Program SharedClient SendCall (SendKind × Message) SendEvent where
  start := SendCall.start
  act s c e := (TcpClient.sendStep s.io c e).map fun r => ({ s with io := r.1 }, r.2)

def SharedClient.wire (s : SharedClient) : Wire := s.io.wire

theorem sharedSends_sends : Sends sharedSends SharedClient.wire := by
  refine ⟨fun _ => rfl, fun s c e s' c' h => ?_⟩
  obtain ⟨r, hr, he⟩ := Option.map_eq_some_iff.mp h
  cases he
  exact TcpClient.sendStep_wire hr

/-- The sends among the calls of a client. -/
def sendsOf (p : Pool SharedClient StreamCall) : Pool SharedClient SendCall :=
  ⟨p.shared, p.tasks.filterMap StreamCall.sendCall⟩

theorem Sending.congr {σ : Type} {wire : σ → Wire} {p p' : Pool σ SendCall} (h : Sending wire p)
    (hw : wire p'.shared = wire p.shared) (ht : p'.tasks = p.tasks) : Sending wire p' where
  intact := by rw [hw]; exact h.intact
  encoded := by rw [ht]; exact h.encoded
  begun := by rw [hw, Pool.total, ht]; exact h.begun
  ledger := by rw [hw, Pool.total, ht]; exact h.ledger

variable {p p' : Pool SharedClient StreamCall}

theorem Sending.clientStep (h : Sending SharedClient.wire (sendsOf p)) {e : ClientEvent}
    (hC : ClientCleanWrite p e) (hs : NetworkSystem.clientStep p e = some p') :
    Sending SharedClient.wire (sendsOf p') := by
  cases e with
  | disconnect =>
      obtain ⟨_, hp⟩ := Option.ite_none_right_eq_some.mp hs
      cases hp
      exact h.congr rfl rfl
  | call e =>
      cases e with
      | spawn k =>
          cases hs
          cases k with
          | receive => exact h.congr rfl (by simp [sendsOf, streamCalls, StreamCall.start, StreamCall.sendCall])
          | send kind m =>
              have hspawn : sharedSends.step (sendsOf p) (.spawn (kind, m)) =
                  some ⟨p.shared, p.tasks.filterMap StreamCall.sendCall ++ [SendCall.start (kind, m)]⟩ := rfl
              refine (h.step sharedSends_sends (by trivial) hspawn).congr rfl ?_
              simp [sendsOf, streamCalls, StreamCall.start, StreamCall.sendCall]
      | act i e =>
          obtain ⟨t, s', t', ht, ha, rfl⟩ := Program.step_act.mp hs
          rcases StreamCall.act_cases ha with ⟨c, c', e', io, rfl, rfl, rfl, rfl, hsend⟩ | ⟨_, _, _, rfl, rfl, _, hr⟩
          · obtain ⟨j, hj, hset⟩ := filterMap_set_some ht (rfl : StreamCall.sendCall _ = _)
              (rfl : StreamCall.sendCall (.send c') = _)
            have hstep : sharedSends.step (sendsOf p) (.act j e') =
                some ⟨{ p.shared with io := io }, (p.tasks.filterMap StreamCall.sendCall).set j c'⟩ := by
              rw [Program.step_act]
              refine ⟨c, _, c', hj, ?_, rfl⟩
              show (TcpClient.sendStep p.shared.io c e').map _ = _
              rw [hsend]; rfl
            exact (h.step (e := .act j e') sharedSends_sends hC hstep).congr rfl hset
          · refine h.congr (congrArg ClientWire.wire (SharedClient.receiveStep_io hr).1) ?_
            exact filterMap_set_none ht rfl rfl

theorem Sending.connected (readTimeout : Nat) :
    Sending SharedClient.wire (sendsOf ⟨SharedClient.connected readTimeout, []⟩) where
  intact := .init
  encoded := by simp [sendsOf]
  begun := Multiset.zero_le _
  ledger := rfl

/-! ## Along a run of a connection -/

namespace Link

variable {reply : Message → List Message} {es fs : List LinkEvent} {e : LinkEvent} {l l' : Link}

/-- What holds of a connection on which the client has put nothing behind a torn frame. -/
structure Carrying (reply : Message → List Message) (l : Link) : Prop where
  joined : Duplex.Joined clientEnd (serverEnd reply) l
  sending : Sending SharedClient.wire (sendsOf l.left)
  valid : ∀ m ∈ l.got, messageCode.Valid m

theorem Carrying.opened (clientTimeout now readTimeout writeTimeout idleTimeout : Nat) :
    Carrying reply (Link.opened clientTimeout now readTimeout writeTimeout idleTimeout) where
  joined := ⟨rfl, rfl⟩
  sending := .connected _
  valid := by simp [got, Link.opened, Served.accept]

theorem Carrying.step (h : Carrying reply l) (hC : l.ClientClean e) (hs : Link.step reply l e = some l') :
    Carrying reply l' where
  joined := h.joined.step hs
  sending := Duplex.invariant_left (I := fun p => Sending SharedClient.wire (sendsOf p))
    (fun _ _ _ h hC hs => h.clientStep hC hs) (fun _ _ h => h.congr rfl rfl) h.sending hC hs
  valid := by
    refine Duplex.invariant_right (J := fun p => ∀ m ∈ p.shared.got, messageCode.Valid m)
      (D := fun _ _ => True) ?_ (fun _ _ h => h) h.valid (by cases e <;> trivial) hs
    intro p e p' hJ _ hs
    exact Program.shared_invariant (I := fun s => ∀ m ∈ s.got, messageCode.Valid m)
      (fun _ _ _ _ _ ha hI => ServerCall.act_valid ha hI) hs hJ

theorem Carrying.run (h : Carrying reply l) (hC : Along (Link.step reply) ClientClean l es)
    (hr : Steps.run (Link.step reply) l es = some l') : Carrying reply l' :=
  run_preserves (fun _ _ _ h hC hs => Carrying.step h hC hs) h hC hr

theorem Carrying.requests_eq (h : Carrying reply l) : l.requests = encodeAll l.got ++ l.pending :=
  h.joined.right.symm

theorem Carrying.frames_requests (h : Carrying reply l) : frames l.requests = l.got ++ frames l.pending := by
  rw [h.requests_eq]
  exact PrefixCode.parse_encodeAll_append h.valid _

theorem Carrying.delivers (h : Carrying reply l) : l.Delivers := by
  have hintact := h.sending.framesIntact
  refine ⟨h.requests_eq, ?_, hintact.received, ?_⟩
  · rw [h.frames_requests]; exact List.prefix_append _ _
  · rw [← h.frames_requests]; exact hintact.sent

/-- The frames that are wholly out are those of the sends that have returned `Ok`, and they come first. -/
theorem Carrying.sent_first (h : Carrying reply l) :
    l.left.shared.io.wire.delivered.Perm l.sentOk ∧ l.left.shared.io.wire.delivered <+: frames l.requests := by
  refine ⟨?_, h.sending.intact.delivered_prefix⟩
  have hledger := congrArg Prod.fst h.sending.ledger
  exact (Multiset.coe_eq_coe.mp ((sum_sentBy l.sends).symm.trans hledger.symm)).symm

/-- What the client has put on the connection stays there. -/
theorem requests_mono (hr : Steps.run (Link.step reply) l es = some l') : l.requests <+: l'.requests := by
  refine run_invariant (I := fun q => l.requests <+: q.requests) ?_ List.prefix_rfl hr
  intro q e q' hI hs
  refine Duplex.invariant_left (I := fun p => l.requests <+: p.shared.io.wire.written) (C := fun _ _ => True)
    ?_ (fun _ _ h => h) hI (by cases e <;> trivial) hs
  intro p e p' hI _ hs
  exact hI.trans (clientEnd.written_step hs)

end Link

end NetworkSystem
