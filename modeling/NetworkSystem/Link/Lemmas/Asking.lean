import NetworkSystem.Link.Lemmas.Reading
import NetworkSystem.Link.Lemmas.Replies

/-!
# A client that waits for each reply

What the client has put on the connection is of the requests up to the first that is not answered, and a send that
fails is its last.
-/

namespace NetworkSystem

open FrameWriter TaskPool Steps

def ExchangeTask.finished : ExchangeTask → Bool
  | .ended => true
  | .awaiting call _ => call.finished

/-- What the client has put on the connection is of the requests up to the first that is not answered. -/
def Asked (requests : List Message) (s : SharedClient) : Prop :=
  ∃ ms, ms <+: requests.take (s.received.length + 1) ∧ (∀ m ∈ ms, messageCode.Valid m) ∧
    s.io.wire.written <+: encodeAll ms

inductive Asking (requests : List Message) (s : SharedClient) : ExchangeTask → Prop
  | sending {call : SendCall} {todo done : List Message} (hreqs : requests = done ++ call.message :: todo)
      (hdone : done.length = s.received.length) (htaken : s.taken = encodeAll s.received)
      (htorn : s.io.wire.torn = false) (h : Sent done s.io.wire call) :
      Asking requests s (.awaiting (.send call) todo)
  | receiving {stage : ClientReceive} {todo done : List Message} (hreqs : requests = done ++ todo)
      (hdone : done.length = s.received.length + 1) (htaken : s.taken = encodeAll s.received ++ stage.buffer)
      (hfree : s.io.wire.inFlight = none) (htorn : s.io.wire.torn = false)
      (hdelivered : s.io.wire.delivered = done) : Asking requests s (.awaiting (.receive stage) todo)
  | finished {task : ExchangeTask} (hfinished : task.finished = true) (hasked : Asked requests s)
      (htaken : encodeAll s.received <+: s.taken) : Asking requests s task

variable {requests : List Message} {s s' : SharedClient} {task task' : ExchangeTask}

/-- Only what the client has put on the connection and what it has received count. -/
theorem Asked.congr (h : Asked requests s) (hw : s'.io.wire.written = s.io.wire.written)
    (hr : s'.received = s.received) : Asked requests s' := by
  obtain ⟨ms, hms, hvalid, hwritten⟩ := h
  exact ⟨ms, by rwa [hr], hvalid, by rwa [hw]⟩

theorem Asked.mono (h : Asked requests s) (hw : s'.io.wire.written = s.io.wire.written)
    (hr : s.received.length ≤ s'.received.length) : Asked requests s' := by
  obtain ⟨ms, hms, hvalid, hwritten⟩ := h
  exact ⟨ms, hms.trans (List.take_prefix_take_left (by omega)), hvalid, by rwa [hw]⟩

theorem Asking.asked (h : Asking requests s task) (hi : Intact messageCode s.io.wire) : Asked requests s := by
  cases h with
  | finished _ hasked => exact hasked
  | @sending call todo done hreqs hdone htaken htorn hsent =>
      obtain ⟨hsub, hwritten⟩ := hi.whole htorn
      rw [hsent.delivered] at hsub hwritten
      have htake : requests.take (s.received.length + 1) = done ++ [call.message] := by
        rw [hreqs, List.append_cons, List.take_left' (by simp [hdone])]
      cases hf : s.io.wire.inFlight with
      | none =>
          rw [hf] at hsub hwritten
          refine ⟨done, ?_, fun m hm => hi.valid m (hsub.subset (by simp [hm])), ?_⟩
          · rw [htake]; exact List.prefix_append _ _
          · rw [hwritten]; simp
      | some f =>
          rw [hf] at hsub hwritten
          have hitem := hsent.item f hf
          simp only [Option.map_some, Option.toList_some, hitem] at hsub
          refine ⟨done ++ [call.message], by rw [htake], fun m hm => hi.valid m (hsub.subset hm), ?_⟩
          have hframe := hi.flight f hf
          rw [hitem] at hframe
          have hall : encodeAll (done ++ [call.message]) = encodeAll done ++ (f.put ++ f.rest) := by
            rw [← hframe]
            simp [encodeAll]
          rw [hwritten, hall, Option.map_some, Option.getD_some, ← List.append_assoc]
          exact List.prefix_append _ _
  | @receiving stage todo done hreqs hdone htaken hfree htorn hdelivered =>
      obtain ⟨hsub, hwritten⟩ := hi.whole htorn
      rw [hdelivered, hfree] at hsub hwritten
      refine ⟨done, ?_, fun m hm => hi.valid m (hsub.subset (by simp [hm])), ?_⟩
      · rw [hreqs, List.take_left' hdone]
      · rw [hwritten]; simp

theorem Asking.taken (h : Asking requests s task) : encodeAll s.received <+: s.taken := by
  cases h with
  | sending _ _ htaken => rw [htaken]
  | receiving _ _ htaken => rw [htaken]; exact List.prefix_append _ _
  | finished _ _ htaken => exact htaken

/-! ## Steps -/

variable {done : List Message}

/-- The client goes on with the next request, or has none left. -/
theorem Asking.next {todo : List Message} (hreqs : requests = done ++ todo)
    (hdone : done.length = s.received.length) (htaken : s.taken = encodeAll s.received)
    (hfree : s.io.wire.inFlight = none) (htorn : s.io.wire.torn = false) (hd : s.io.wire.delivered = done)
    (hasked : Asked requests s) : Asking requests s (.next todo) := by
  cases todo with
  | nil => exact .finished rfl hasked (by rw [htaken])
  | cons m todo => exact .sending hreqs hdone htaken htorn (.start hfree hd)

theorem Asking.send {call call' : SendCall} {todo : List Message} {io : ClientWire}
    {ev : Option (FrameWriter.Event Message)} (h : Asking requests s (.awaiting (.send call) todo))
    (hi : Intact messageCode s.io.wire) (hlive : (StreamCall.send call).finished = false)
    (hs : WireStep s.io.wire call ev io.wire call') :
    Asking requests { s with io := io } (.resume todo (.send call')) := by
  have hasked := h.asked hi
  cases h with
  | finished hfinished =>
      have hcontra : (StreamCall.send call).finished = true := hfinished
      rw [hlive] at hcontra
      cases hcontra
  | @sending _ _ done hreqs hdone htaken htorn hsent =>
      have hmessage := hs.begun_eq.1
      obtain ⟨kind, m, stage⟩ := call'
      dsimp only at hmessage
      subst hmessage
      rcases hsent.step hs with ⟨hsent', hgoes, hsame⟩ | ⟨hok, hfree, hd, hsame⟩ | ⟨hl, hh, hfail, _, _, hwritten⟩
      · have hresume : ExchangeTask.resume todo (.send ⟨kind, call.message, stage⟩) =
            .awaiting (.send ⟨kind, call.message, stage⟩) todo := by
          cases stage <;> first | rfl | (rcases hgoes with hgoes | hgoes <;> cases hgoes)
        rw [hresume]
        exact .sending hreqs hdone htaken (hsame.trans htorn) hsent'
      · dsimp only at hok
        subst hok
        have hreqs' : requests = (done ++ [call.message]) ++ todo := by rw [hreqs, List.append_cons]
        refine .receiving hreqs' ?_ ?_ hfree (hsame.trans htorn) hd
        · rw [List.length_append, hdone]; rfl
        · rw [htaken]; exact (List.append_nil _).symm
      · have hfinished : (ExchangeTask.resume todo (.send ⟨kind, call.message, stage⟩)).finished = true := by
          cases stage with
          | returned result => cases result <;> first | rfl | cases hfail
          | dropped => rfl
          | entered | locking => cases hl
          | _ => cases hh
        exact .finished hfinished (hasked.congr hwritten rfl) (by rw [htaken])

theorem Asking.receive {stage stage' : ClientReceive} {todo : List Message} {e : ClientReceiveEvent}
    (h : Asking requests s (.awaiting (.receive stage) todo)) (hi : Intact messageCode s.io.wire)
    (hlive : (StreamCall.receive stage).finished = false) (hs : s.receiveStep stage e = some (s', stage'))
    (hleft : ∀ m, stage' = .returned (.ok m) → s.leftover stage e = []) :
    Asking requests s' (.resume todo (.receive stage')) := by
  have hasked := h.asked hi
  have hreads := SharedClient.receiveStep_reads hs
  obtain ⟨hio, _⟩ := SharedClient.receiveStep_io hs
  cases h with
  | finished hfinished =>
      have hcontra : (StreamCall.receive stage).finished = true := hfinished
      rw [hlive] at hcontra
      cases hcontra
  | @receiving _ _ done hreqs hdone htaken hfree htorn hd =>
      have htaken' := hreads.taken htaken
      rw [← hio] at hfree htorn hd
      have hmono : Asked requests s' :=
        hasked.mono (by rw [hio]) (by rw [hreads.received, List.length_append]; omega)
      have hends : (ExchangeTask.resume todo (.receive stage')).finished = true →
          Asking requests s' (.resume todo (.receive stage')) := by
        intro hfinished
        exact .finished hfinished hmono (by rw [htaken']; exact List.prefix_append _ _)
      cases stage' with
      | returned result =>
          cases result with
          | error err => exact hends rfl
          | ok m =>
              rw [hleft m rfl, List.append_nil] at htaken'
              refine .next hreqs ?_ htaken' hfree htorn hd hmono
              rw [hdone, hreads.received, List.length_append]; rfl
      | dropped | panicked => exact hends rfl
      | _ =>
          have hsame : s'.received = s.received := hreads.received.trans (List.append_nil _)
          rw [hreads.buffer rfl] at htaken'
          exact .receiving hreqs (by rw [hdone, hsame]) htaken' hfree htorn hd

end NetworkSystem
