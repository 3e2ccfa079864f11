import NetworkSystem.Link.Lemmas.Delivery
import NetworkSystem.Link.Lemmas.Lockstep

/-!
# What a connection promises

A client and the session that the server has accepted for it, with the bytes between them: what the client sends is
what the session gets, and what the session task replies is what the client receives.
-/

namespace NetworkSystem

open Steps TaskPool

/-! ## From the client to the session -/

/-- In every run of a connection on which the client puts nothing behind a torn frame, whatever tasks send and
receive at both ends and however the bytes are split into reads: the session has got whole messages in the order of
their frames, each of them passed to a send, and none whose send returned `Ok` is lost. -/
theorem link_delivers (reply : Message → List Message)
    (clientTimeout now readTimeout writeTimeout idleTimeout : Nat) (es : List LinkEvent) (l : Link)
    (hr : run (Link.step reply) (Link.opened clientTimeout now readTimeout writeTimeout idleTimeout) es = some l)
    (hclean : Along (Link.step reply) Link.ClientClean
      (Link.opened clientTimeout now readTimeout writeTimeout idleTimeout) es) : l.Delivers :=
  ((Link.Carrying.opened _ _ _ _ _).run hclean hr).delivers

/-- A `send` of `[1, 2]` in two pieces, and a `try_send` of `[9]` that waits for the lock. -/
def sendTwo : List LinkEvent :=
  [.call (.spawn (.send .send ⟨[1, 2]⟩)), .call (.spawn (.send .trySend ⟨[9]⟩)), .call (.act 0 (.send (.check 0))),
      .call (.act 1 (.send (.check 0))), .call (.act 0 (.send .lock)), .call (.act 0 (.send .writable)),
      .call (.act 0 (.send (.put 3))), .call (.act 0 (.send (.put 3))), .call (.act 0 (.send (.done 0)))].map .left

/-- The `try_send`, and the session that reads both frames in one piece. -/
def sendRest : List LinkEvent :=
  [.call (.act 1 (.send .lock)), .call (.act 1 (.send (.tryWrite 5))), .call (.act 1 (.send (.done 0)))].map .left ++
    (acts 0 [.receive (.check 0), .receive .lockBuffer, .receive (.lockRead 0 0),
      .receive (.read ⟨.ready 100, 0⟩ 0), .receive (.check 0), .receive .lockBuffer,
      .receive (.lockRead 0 0)]).map .right

def ignoreAll : Message → List Message := fun _ => []

theorem link_delivers_two :
    ∃ l, run (Link.step ignoreAll) (Link.opened 9 0 9 9 9) (sendTwo ++ sendRest) = some l ∧
      l.got = [⟨[1, 2]⟩, ⟨[9]⟩] ∧ l.Delivers := by
  have hrun : (run (Link.step ignoreAll) (Link.opened 9 0 9 9 9) (sendTwo ++ sendRest)).map Link.got =
      some [⟨[1, 2]⟩, ⟨[9]⟩] := by decide +kernel
  obtain ⟨l, hr, hgot⟩ := Option.map_eq_some_iff.mp hrun
  exact ⟨l, hr, hgot, link_delivers ignoreAll 9 0 9 9 9 (sendTwo ++ sendRest) l hr (by decide +kernel)⟩

/-- What was sent first is received first, as long as the client puts nothing behind a torn frame, neither before nor
after: the messages whose sends had returned `Ok` at some point come before all that is sent later, in every run that
goes on from there, and the session gets them in that order. -/
theorem link_keeps_order (reply : Message → List Message)
    (clientTimeout now readTimeout writeTimeout idleTimeout : Nat) (es fs : List LinkEvent) (l l' : Link)
    (hr : run (Link.step reply) (Link.opened clientTimeout now readTimeout writeTimeout idleTimeout) es = some l)
    (hclean : Along (Link.step reply) Link.ClientClean
      (Link.opened clientTimeout now readTimeout writeTimeout idleTimeout) es)
    (hr' : run (Link.step reply) l fs = some l') (hclean' : Along (Link.step reply) Link.ClientClean l fs) :
    ∃ first, first.Perm l.sentOk ∧ first <+: frames l'.requests ∧ l'.got <+: frames l'.requests := by
  have hcarrying := (Link.Carrying.opened clientTimeout now readTimeout writeTimeout idleTimeout).run hclean hr
  obtain ⟨hperm, hprefix⟩ := hcarrying.sent_first
  refine ⟨_, hperm, ?_, (hcarrying.run hclean' hr').delivers.order⟩
  exact hprefix.trans (PrefixCode.parse_mono (Link.requests_mono hr'))

theorem link_keeps_order_of_two :
    ∃ l l', run (Link.step ignoreAll) (Link.opened 9 0 9 9 9) sendTwo = some l ∧ l.sentOk = [⟨[1, 2]⟩] ∧
      run (Link.step ignoreAll) l sendRest = some l' ∧ l'.sentOk = [⟨[1, 2]⟩, ⟨[9]⟩] ∧
      ∃ first, first.Perm l.sentOk ∧ first <+: frames l'.requests ∧ l'.got <+: frames l'.requests := by
  have hall : Along (Link.step ignoreAll) Link.ClientClean (Link.opened 9 0 9 9 9) (sendTwo ++ sendRest) := by
    decide +kernel
  have hrun : (run (Link.step ignoreAll) (Link.opened 9 0 9 9 9) sendTwo).map Link.sentOk = some [⟨[1, 2]⟩] := by
    decide +kernel
  have hrest : (run (Link.step ignoreAll) (Link.opened 9 0 9 9 9) (sendTwo ++ sendRest)).map Link.sentOk =
      some [⟨[1, 2]⟩, ⟨[9]⟩] := by decide +kernel
  obtain ⟨l, hr, hsent⟩ := Option.map_eq_some_iff.mp hrun
  obtain ⟨l', hr', hsent'⟩ := Option.map_eq_some_iff.mp hrest
  obtain ⟨l₁, h₁, hr'⟩ := run_append.mp hr'
  obtain rfl : l = l₁ := Option.some.inj (hr.symm.trans h₁)
  exact ⟨l, l', hr, hsent, hr', hsent', link_keeps_order ignoreAll 9 0 9 9 9 sendTwo sendRest l l' hr hall.prefix hr'
    (hall.suffix hr)⟩

/-! ## Requests and replies -/

/-- The example client against a server whose handler replies at most once to each message. The session task is the
only one to send and receive on the session, and nobody broadcasts; other tasks close it or set it inactive at any
time. In every such run, with every outcome of the reads and writes and whatever times out, the replies that the
client has received are those to its first requests, in order. The session has got the requests in order, and at
most one more than the client has received replies. -/
theorem exchange_answered (reply : Message → Option Message) (requests : List Message)
    (clientTimeout now readTimeout writeTimeout idleTimeout : Nat) (es : List ExchangeEvent) (l : ExchangeLink)
    (hr : run (ExchangeLink.step reply)
      (ExchangeLink.opened requests clientTimeout now readTimeout writeTimeout idleTimeout) es = some l)
    (hserve : Along (ExchangeLink.step reply) ExchangeLink.ServesOnly
      (ExchangeLink.opened requests clientTimeout now readTimeout writeTimeout idleTimeout) es) :
    l.received.map some <+: requests.map reply ∧ l.got <+: requests ∧
      l.got.length ≤ l.received.length + 1 := by
  have h : ExchangeLink.Lockstep reply requests l :=
    run_preserves (fun _ _ _ h hC hs => ExchangeLink.Lockstep.step h hC hs) (.opened _ _ _ _ _ _) hserve hr
  refine ⟨h.answered, h.got.trans (List.take_prefix _ _), ?_⟩
  exact h.got.length_le.trans (List.length_take_le _ _)

/-- One request of the client, with the `n` bytes of its frame written and read in one piece, and the echo. -/
def echoOnce (n : Nat) : List ExchangeEvent :=
  [.send (.check 0), .send .lock, .send .writable, .send (.put n), .send (.done 0)].map .left ++
    (acts 0 [.receive (.check 0), .receive .lockBuffer, .receive (.lockRead 0 0), .receive (.read ⟨.ready n, 0⟩ 0),
      .send (.check 0), .send .lock, .send (.put n), .send (.done 0)]).map .right ++
    [.receive .check, .receive (.lock 0), .receive (.read ⟨.ready n, 0⟩)].map .left

theorem exchange_answered_twice :
    ∃ l, run (ExchangeLink.step some) (ExchangeLink.opened [⟨[1, 2]⟩, ⟨[9]⟩] 9 0 9 9 9) (echoOnce 6 ++ echoOnce 5) =
        some l ∧ l.received = [⟨[1, 2]⟩, ⟨[9]⟩] ∧ l.received.map some <+: [⟨[1, 2]⟩, ⟨[9]⟩].map some := by
  have hrun : (run (ExchangeLink.step some) (ExchangeLink.opened [⟨[1, 2]⟩, ⟨[9]⟩] 9 0 9 9 9)
      (echoOnce 6 ++ echoOnce 5)).map ExchangeLink.received = some [⟨[1, 2]⟩, ⟨[9]⟩] := by decide +kernel
  obtain ⟨l, hr, hreceived⟩ := Option.map_eq_some_iff.mp hrun
  exact ⟨l, hr, hreceived, (exchange_answered some [⟨[1, 2]⟩, ⟨[9]⟩] 9 0 9 9 9 _ l hr (by decide +kernel)).1⟩

/-- A client that does not wait for its replies, and tasks of it that send and receive at once. In every run in which
the session task puts nothing behind a torn frame and is the only one to send and receive at its end, and in which no
`receive` of the client ends with bytes left in its buffer, the client receives replies to the frames that it has put
on the connection, in their order. Where the client too puts nothing behind a torn frame, these are frames of messages
that were passed to its sends. -/
theorem link_replies_in_order (reply : Message → List Message)
    (clientTimeout now readTimeout writeTimeout idleTimeout : Nat) (es : List LinkEvent) (l : Link)
    (hr : run (Link.step reply) (Link.opened clientTimeout now readTimeout writeTimeout idleTimeout) es = some l)
    (hserve : Along (Link.step reply) Link.ServesClean
      (Link.opened clientTimeout now readTimeout writeTimeout idleTimeout) es)
    (hread : Along (Link.step reply) Link.ReadsWhole
      (Link.opened clientTimeout now readTimeout writeTimeout idleTimeout) es) :
    l.received <+: frames l.replies ∧ (frames l.replies).Sublist (l.got.flatMap reply) ∧
      l.got <+: frames l.requests ∧
      (Along (Link.step reply) Link.ClientClean
          (Link.opened clientTimeout now readTimeout writeTimeout idleTimeout) es →
        (frames l.requests).Subperm (l.sends.map SendCall.message)) := by
  have hjoined : Duplex.Joined clientEnd (serverEnd reply) l :=
    Duplex.Joined.of_run (p := Link.opened _ _ _ _ _) ⟨rfl, rfl⟩ hr
  have hreading : Reading l.left :=
    Duplex.run_left (I := Reading) (fun _ _ _ h hC hs => h.clientStep hC hs)
      (fun _ _ h => ⟨h.valid, h.count, h.free, h.held⟩) (.connected _) hread hr
  have hserving : Serving reply l.right ∧ Whole l.right.shared.wire :=
    Duplex.run_right (p := Link.opened clientTimeout now readTimeout writeTimeout idleTimeout)
      (J := fun p => Serving reply p ∧ Whole p.shared.wire)
      (fun _ _ _ h hC hs => ⟨h.1.step hC.1 hs, h.1.whole hC.2 h.2 hs⟩) (fun _ _ h => ⟨h.1.arrive _, h.2⟩)
      ⟨.accept _ _ _ _, .init⟩ hserve hr
  have hgot : ∀ m ∈ l.got, messageCode.Valid m := by
    refine Duplex.run_right (J := fun p => ∀ m ∈ p.shared.got, messageCode.Valid m) (D := fun _ _ => True) ?_
      (fun _ _ h => h) (by intro m hm; cases hm) (fun _ e _ _ _ _ => by cases e <;> trivial) hr
    intro p e p' hJ _ hs
    exact Program.shared_invariant (I := fun s => ∀ m ∈ s.got, messageCode.Valid m)
      (fun _ _ _ _ _ ha hI => ServerCall.act_valid ha hI) hs hJ
  refine ⟨?_, hserving.2.intact.parse_sublist.trans hserving.1.begun, ?_, ?_⟩
  · refine PrefixCode.prefix_parse hreading.valid ?_
    have hprefix := hreading.encodeAll_prefix
    have harrived : l.left.shared.arrived = l.replies := hjoined.left
    rwa [harrived] at hprefix
  · refine PrefixCode.prefix_parse hgot ⟨l.pending, ?_⟩
    exact hjoined.right
  · intro hclean
    exact ((Link.Carrying.opened _ _ _ _ _).run hclean hr).delivers.passed

/-- The session echoes both messages of `sendTwo`, the second of which is in its buffer already, and two tasks of the
client receive the echoes. -/
def echoTwo : List LinkEvent :=
  sendTwo ++ sendRest.take 7 ++
    (acts 0 [.send (.check 0), .send .lock, .send (.put 6), .send (.done 0), .receive (.check 0),
      .receive .lockBuffer, .receive (.lockRead 0 0), .send (.check 0), .send .lock, .send (.put 5),
      .send (.done 0)]).map .right ++
    [.call (.spawn .receive), .call (.spawn .receive), .call (.act 2 (.receive .check)),
      .call (.act 3 (.receive .check)), .call (.act 3 (.receive (.lock 0))),
      .call (.act 3 (.receive (.read ⟨.ready 6, 0⟩))), .call (.act 2 (.receive (.lock 0))),
      .call (.act 2 (.receive (.read ⟨.ready 5, 0⟩)))].map .left

theorem link_replies_in_order_twice :
    ∃ l, run (Link.step fun m => [m]) (Link.opened 9 0 9 9 9) echoTwo = some l ∧
      l.received = [⟨[1, 2]⟩, ⟨[9]⟩] ∧ (frames l.replies).Sublist (l.got.flatMap fun m => [m]) ∧
      (frames l.requests).Subperm (l.sends.map SendCall.message) := by
  have hrun : (run (Link.step fun m => [m]) (Link.opened 9 0 9 9 9) echoTwo).map Link.received =
      some [⟨[1, 2]⟩, ⟨[9]⟩] := by decide +kernel
  obtain ⟨l, hr, hreceived⟩ := Option.map_eq_some_iff.mp hrun
  have horder := link_replies_in_order (fun m => [m]) 9 0 9 9 9 echoTwo l hr (by decide +kernel) (by decide +kernel)
  exact ⟨l, hr, hreceived, horder.2.1, horder.2.2.2 (by decide +kernel)⟩

end NetworkSystem
