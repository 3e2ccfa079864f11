import NetworkSystem.Link.Lemmas.Asking

/-!
# Requests and replies in lockstep

The client has at most one request that is not answered, so the session gets at most one message more than the client
has received. It follows that no `receive` of the client reads past its frame, and that a reply that was torn is the
last thing that the session sends.
-/

namespace NetworkSystem

open FrameWriter TaskPool Steps

/-! ## At most one reply for each message -/

section Filter

variable {α β : Type} (f : α → Option β)

theorem length_flatMap_toList (l : List α) : (l.flatMap fun a => (f a).toList).length ≤ l.length := by
  induction l with
  | nil => exact Nat.le_refl 0
  | cons a l ih =>
      rw [List.flatMap_cons, List.length_append, List.length_cons]
      have hone : (f a).toList.length ≤ 1 := by cases f a <;> simp
      omega

/-- When nothing is dropped, each reply is the one to the message at its place. -/
theorem map_some_flatMap_toList {l : List α} (h : l.length ≤ (l.flatMap fun a => (f a).toList).length) :
    (l.flatMap fun a => (f a).toList).map some = l.map f := by
  induction l with
  | nil => rfl
  | cons a l ih =>
      rw [List.flatMap_cons, List.length_append, List.length_cons] at h
      have hrest := length_flatMap_toList f l
      cases ha : f a with
      | none =>
          rw [ha] at h
          simp only [Option.toList_none, List.length_nil] at h
          omega
      | some b =>
          rw [ha] at h
          simp only [Option.toList_some, List.length_singleton] at h
          rw [List.flatMap_cons, ha, List.map_append, List.map_cons, ha, ih (by omega)]
          rfl

end Filter

/-! ## A frame that was torn is the last -/

variable {reply : Message → List Message} {p p' : Pool Served ServerCall}

theorem Session.sendStep_writes {s s' : SessionWire} {c c' : SendCall} {e : SendEvent}
    (h : Session.sendStep s c e = some (s', c')) (he : e.writes = true) : c.stage.holds = true := by
  unfold Session.sendStep at h
  cases hst : c.stage with
  | entered =>
      rw [hst] at h
      cases e with
      | check now => cases he
      | _ => cases h
  | locking data =>
      rw [hst] at h
      cases e with
      | lock | drop => cases he
      | _ => cases h
  | writing => rfl
  | _ => rw [hst] at h; cases h

/-- With no more than one frame begun behind those that are out, nothing is put behind a torn frame. -/
theorem Serving.clean (h : Serving reply p) (hw : Whole p.shared.wire)
    (hone : p.shared.wire.torn = true → p.shared.wire.begun.length ≤ p.shared.wire.delivered.length + 1)
    {e : TaskPool.Event SessionRequest SessionEvent} (hs : (serverCalls reply).step p e = some p') :
    ServerCleanWrite p e := by
  cases e with
  | spawn k => trivial
  | act i e =>
      obtain ⟨t, s', t', ht, ha, rfl⟩ := Program.step_act.mp hs
      cases e with
      | send e =>
          intro hwrites
          cases htorn : p.shared.wire.torn with
          | false => exact htorn
          | true =>
              have hcounted := hw.counted
              have hidle : p.shared.wire.inFlight.isSome = false := by
                have hbegun := hone htorn
                unfold Writer.Counted at hcounted
                rw [htorn] at hcounted
                cases hf : p.shared.wire.inFlight.isSome with
                | false => rfl
                | true => rw [hf] at hcounted; simp only [Bool.toNat_true] at hcounted; omega
              -- the call that writes has its frame in flight
              obtain ⟨c, c', hact, _, hcases⟩ := ServerCall.act_call ha
              have hstep := SessionCall.act_step hact
              generalize s'.session = session' at hstep
              cases hstep with
              | @send call call' _ io _ hsend =>
                  have hholds := Session.sendStep_writes hsend hwrites
                  by_cases hi : i = 0
                  · subst hi
                    obtain ⟨t₀, h₀, hreplying⟩ := h.first
                    obtain rfl : t₀ = t := Option.some.inj (h₀.symm.trans ht)
                    rcases hcases with ⟨rfl, _⟩ | ⟨todo, rfl, _⟩
                    · cases hreplying
                    · cases hreplying with
                      | sending _ hturn =>
                          rw [hturn.flight, hholds] at hidle
                          cases hidle
                  · have hcloses := h.others i t ht hi
                    rcases hcases with ⟨rfl, _⟩ | ⟨todo, rfl, _⟩ <;> cases hcloses
      | _ => trivial

/-! ## What arrives -/

theorem Serving.arrive {reply : Message → List Message} {p : Pool Served ServerCall} (h : Serving reply p)
    (bytes : Bytes) : Serving reply ((serverEnd reply).deliver p bytes) := by
  obtain ⟨t, ht, hreplying⟩ := h.first
  exact ⟨⟨t, ht, hreplying.congr rfl rfl⟩, h.others⟩

theorem Asking.arrive {requests : List Message} {s : SharedClient} {task : ExchangeTask} (h : Asking requests s task) (bytes : Bytes) :
    Asking requests { s with incoming := s.incoming ++ bytes } task := by
  cases h with
  | sending hreqs hdone htaken htorn hsent => exact .sending hreqs hdone htaken htorn hsent
  | receiving hreqs hdone htaken hfree htorn hd => exact .receiving hreqs hdone htaken hfree htorn hd
  | finished hfinished hasked htaken => exact .finished hfinished (hasked.congr rfl rfl) htaken

/-! ## Both ends -/

namespace ExchangeLink

variable {reply : Message → Option Message} {requests : List Message} {l l' : ExchangeLink} {e : ExchangeEvent}

structure Lockstep (reply : Message → Option Message) (requests : List Message) (l : ExchangeLink) : Prop where
  joined : Duplex.Joined exchangeEnd (serverEnd fun m => (reply m).toList) l
  asking : Asking requests l.left.shared l.left.task
  client : Intact messageCode l.left.shared.io.wire
  serving : Serving (fun m => (reply m).toList) l.right
  server : Whole l.right.shared.wire
  got_valid : ∀ m ∈ l.got, messageCode.Valid m
  received_valid : ∀ m ∈ l.received, messageCode.Valid m
  answered : l.received.map some <+: requests.map reply

/-- The session has got the requests up to the first that is not answered, at most. -/
theorem Lockstep.got (h : Lockstep reply requests l) : l.got <+: requests.take (l.received.length + 1) := by
  obtain ⟨ms, hms, hvalid, hwritten⟩ := h.asking.asked h.client
  refine List.IsPrefix.trans ?_ hms
  have hall : encodeAll l.got <+: encodeAll ms := by
    refine List.IsPrefix.trans ?_ hwritten
    have hjoined : l.right.shared.arrived = l.left.shared.io.wire.written := h.joined.right
    rw [← hjoined]
    exact List.prefix_append _ _
  have hparse := PrefixCode.prefix_parse h.got_valid hall
  rwa [PrefixCode.parse_encodeAll hvalid] at hparse

theorem Lockstep.begun_length (h : Lockstep reply requests l) :
    l.right.shared.wire.begun.length ≤ l.received.length + 1 := by
  have hbegun := h.serving.begun.length_le
  have hreplies := length_flatMap_toList reply l.got
  have hgot := h.got.length_le
  rw [List.length_take] at hgot
  have hsame : l.right.shared.got = l.got := rfl
  rw [hsame] at hbegun
  omega

/-- What the client has taken is of frames of replies that have begun. -/
theorem Lockstep.replied (h : Lockstep reply requests l) : ∃ ms, ms.Sublist (l.got.flatMap fun m => (reply m).toList) ∧
    (∀ m ∈ ms, messageCode.Valid m) ∧ ms.length ≤ l.received.length + 1 ∧
      l.left.shared.arrived <+: encodeAll ms := by
  obtain ⟨ms, hms, hwritten⟩ := h.server.intact.prefix
  refine ⟨ms, hms.trans h.serving.begun, fun m hm => h.server.intact.valid m (hms.subset hm), ?_, ?_⟩
  · exact hms.length_le.trans h.begun_length
  · have hjoined : l.left.shared.arrived = l.right.shared.session.io.wire.written := h.joined.left
    rw [hjoined]
    exact hwritten

/-- The replies that the client has received are wholly out. -/
theorem Lockstep.delivered_length (h : Lockstep reply requests l) (htorn : l.right.shared.wire.torn = true) :
    l.received.length ≤ l.right.shared.wire.delivered.length := by
  obtain ⟨⟨m, p, q, hsub, hframe, hq, hwritten⟩, _⟩ := h.server.intact.cut htorn
  have hvalid : ∀ a ∈ l.right.shared.wire.delivered ++ [m], messageCode.Valid a :=
    fun a ha => h.server.intact.valid a (hsub.subset ha)
  have hjoined : l.left.shared.arrived = l.right.shared.session.io.wire.written := h.joined.left
  have hprefix : encodeAll l.received <+: l.right.shared.session.io.wire.written := by
    rw [← hjoined]
    exact h.asking.taken.trans (List.prefix_append _ _)
  have hparse := PrefixCode.prefix_parse h.received_valid hprefix
  rw [show l.right.shared.session.io.wire.written = l.right.shared.wire.written from rfl, hwritten,
    PrefixCode.parse_cut (fun a ha => hvalid a (by simp [ha])) (hvalid m (by simp)) hframe hq] at hparse
  exact hparse.length_le

theorem Lockstep.clean (h : Lockstep reply requests l) {e : TaskPool.Event SessionRequest SessionEvent}
    {p' : Pool Served ServerCall} (hs : (serverCalls fun m => (reply m).toList).step l.right e = some p') :
    ServerCleanWrite l.right e := by
  refine h.serving.clean h.server (fun htorn => ?_) hs
  have hbegun := h.begun_length
  have hdelivered := h.delivered_length htorn
  omega

/-- A `receive` that returns a message has read exactly its frame, which is the reply to the last request. -/
theorem Lockstep.receives (h : Lockstep reply requests l) {stage : ClientReceive} {todo : List Message}
    {e : ClientReceiveEvent} {s' : SharedClient} {m : Message}
    (htask : l.left.task = .awaiting (.receive stage) todo)
    (hlive : (StreamCall.receive stage).finished = false)
    (hs : l.left.shared.receiveStep stage e = some (s', .returned (.ok m))) :
    l.left.shared.leftover stage e = [] ∧ (l.received ++ [m]).map some <+: requests.map reply := by
  have hreads := SharedClient.receiveStep_reads hs
  obtain ⟨_, harrived⟩ := SharedClient.receiveStep_io hs
  obtain ⟨ms, hms, hvalid, hlen, hall⟩ := h.replied
  have htaken : s'.taken = encodeAll (l.received ++ [m]) ++ l.left.shared.leftover stage e := by
    have hasking := h.asking
    rw [htask] at hasking
    have htaken := hreads.taken (by
      cases hasking with
      | receiving _ _ htaken => exact htaken
      | finished hfinished =>
          have hcontra : (StreamCall.receive stage).finished = true := hfinished
          rw [hlive] at hcontra
          cases hcontra)
    rwa [hreads.received] at htaken
  have hprefix : encodeAll (l.received ++ [m]) ++ l.left.shared.leftover stage e <+: encodeAll ms := by
    rw [← htaken]
    refine List.IsPrefix.trans ?_ hall
    rw [← harrived]
    exact List.prefix_append _ _
  have hreceived : ∀ a ∈ l.received ++ [m], messageCode.Valid a := by
    intro a ha
    rcases List.mem_append.mp ha with ha | ha
    · exact h.received_valid a ha
    · exact hreads.valid a ha
  have hms' : l.received ++ [m] = ms := by
    have hparse := PrefixCode.prefix_parse hreceived ((List.prefix_append _ _).trans hprefix)
    rw [PrefixCode.parse_encodeAll hvalid] at hparse
    exact hparse.eq_of_length_le (by rw [List.length_append]; exact hlen)
  constructor
  · rw [hms'] at hprefix
    have hle := hprefix.length_le
    rw [List.length_append] at hle
    exact List.length_eq_zero_iff.mp (by omega)
  · -- every message that the session has got is answered, so the replies are those to the first requests
    have hlength : l.received.length + 1 = ms.length := by rw [← hms', List.length_append]; rfl
    have hgot := h.got.length_le
    rw [List.length_take] at hgot
    have hreplies := length_flatMap_toList reply l.got
    have hle := hms.length_le
    rw [hms', hms.eq_of_length_le (by omega), map_some_flatMap_toList reply (by omega)]
    exact (h.got.trans (List.take_prefix _ _)).map reply

theorem Lockstep.client_step (h : Lockstep reply requests l) {x : Exchange} {e : StreamEvent}
    (hs : l.left.step e = some x) : Asking requests x.shared x.task ∧ Intact messageCode x.shared.io.wire ∧
      (∀ m ∈ x.shared.received, messageCode.Valid m) ∧ x.shared.received.map some <+: requests.map reply := by
  obtain ⟨call, todo, s, call', htask, hact, rfl⟩ := Exchange.step_eq_some.mp hs
  have hlive := StreamCall.act_live hact
  have hasking := h.asking
  rw [htask] at hasking
  rcases StreamCall.act_cases hact with
    ⟨c, c', e', io, rfl, rfl, rfl, rfl, hsend⟩ | ⟨stage, stage', e', rfl, rfl, rfl, hreceive⟩
  · obtain ⟨ev, hstep, _⟩ := TcpClient.sendStep_wire hsend
    refine ⟨hasking.send h.client hlive hstep, ?_, h.received_valid, h.answered⟩
    cases hasking with
    | sending _ _ _ htorn hsent => exact hstep.intact hsent.encoded (fun _ _ => htorn) h.client
    | finished hfinished =>
        have hcontra : (StreamCall.send c).finished = true := hfinished
        rw [hlive] at hcontra
        cases hcontra
  · obtain ⟨hio, _⟩ := SharedClient.receiveStep_io hreceive
    have hreads := SharedClient.receiveStep_reads hreceive
    refine ⟨hasking.receive h.client hlive hreceive ?_, by rw [hio]; exact h.client, ?_, ?_⟩
    · rintro m rfl
      exact (h.receives htask hlive hreceive).1
    · rw [hreads.received]
      intro m hm
      rcases List.mem_append.mp hm with hm | hm
      · exact h.received_valid m hm
      · exact hreads.valid m hm
    · rw [hreads.received]
      cases stage' with
      | returned result =>
          cases result with
          | ok m => exact (h.receives htask hlive hreceive).2
          | error err => exact (List.append_nil l.received).symm ▸ h.answered
      | _ => exact (List.append_nil l.received).symm ▸ h.answered

theorem Lockstep.step (h : Lockstep reply requests l) (hserve : l.ServesOnly e)
    (hs : ExchangeLink.step reply l e = some l') : Lockstep reply requests l' := by
  have hjoined := h.joined.step hs
  cases e with
  | left e =>
      obtain ⟨x, hown, rfl⟩ := Duplex.step_left.mp hs
      obtain ⟨hasking, hclient, hvalid, hanswered⟩ := h.client_step hown
      exact ⟨hjoined, hasking, hclient, h.serving.arrive _, h.server, h.got_valid, hvalid, hanswered⟩
  | right e =>
      obtain ⟨p, hown, rfl⟩ := Duplex.step_right.mp hs
      refine ⟨hjoined, h.asking.arrive _, h.client, h.serving.step hserve hown,
        h.serving.whole (h.clean hown) h.server hown, ?_, h.received_valid, h.answered⟩
      exact Program.shared_invariant (I := fun s => ∀ m ∈ s.got, messageCode.Valid m)
        (fun _ _ _ _ _ ha hI => ServerCall.act_valid ha hI) hown h.got_valid

theorem Lockstep.opened (requests : List Message) (clientTimeout now readTimeout writeTimeout idleTimeout : Nat) :
    Lockstep reply requests
      (ExchangeLink.opened requests clientTimeout now readTimeout writeTimeout idleTimeout) where
  joined := ⟨rfl, rfl⟩
  asking := by
    have hreqs : requests = [] ++ requests := rfl
    refine .next hreqs rfl rfl rfl rfl rfl ⟨[], List.nil_prefix, by simp, List.prefix_rfl⟩
  client := .init
  serving := .accept _ _ _ _
  server := .init
  got_valid := by intro m hm; cases hm
  received_valid := by intro m hm; cases hm
  answered := List.nil_prefix

end ExchangeLink

end NetworkSystem
