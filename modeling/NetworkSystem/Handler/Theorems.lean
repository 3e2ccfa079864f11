import NetworkSystem.Handler.Lemmas.Kept
import NetworkSystem.Processor.Theorems
import NetworkSystem.Server.Theorems

/-!
# What a server with a thread pool promises

The workers run the jobs of all sessions in any order, and still every session's inner handler sees that session's
callbacks, in their order, and nothing else.
-/

namespace NetworkSystem

open TaskPool Steps HandledServer

variable {W : Type} {config : ServerConfig} {process : MessageProcessor W} {es : List HandledEvent}
  {x : HandledServer W}

/-- In every run of the server and of the pool, panics, aborts, refused and cancelled jobs included, the inner handler
sees every session connect and disconnect as the server does, and in between, in order, what the processor has made
of the session's messages; every message that it does not see is accounted for by one error, but for the last one. -/
theorem handler_sees_sessions {world : W} (hr : run (step config process) (withConfig config world) es = some x) (i : Nat)
    (t : SessionTask) (hi : x.server.tasks[i]? = some t) :
    ∃ s, x.handler.sessions[i]? = some s ∧ SeesSession process t s := by
  obtain ⟨hshaped, s, pending, hs, hreceived, hdelegates, hpending⟩ := run_session hr hi
  refine ⟨s, hs, hreceived, ⟨pending, hdelegates, hpending⟩, ?_, ?_⟩
  · exact exists_closedLog (hdelegates.bracketed (hreceived ▸ hshaped.log_cases))
  · intro hclosed
    exact hdelegates.closed (hreceived ▸ hclosed)

/-- A message is processed with the pool while the session waits. -/
def processMessage (i : Nat) : List HandledEvent :=
  [.handler (.submit i none), .handler (.work 0), .handler (.resume i)]

/-- A session connects and receives the message of "hi" encrypted with the key "k" and compressed. -/
def handleOne : List HandledEvent :=
  (ServerEvent.start :: acceptConnection ++ onTask 0 [.poll, .go, .go, .go]).map .server ++
    [.handler (.finish 0)] ++ (onTask 0 [.go, .go, .go, .receive ⟨gzipped⟩]).map .server ++ processMessage 0

/-- "hi" encrypted with the key "k" and compressed. -/
def hiStages : List Stage := [.encryption [107] (by decide), .compression 6]

def handledTask : SessionTask :=
  { stage := .onMessage, polled := true, session := some {}, log := [.connected, .message ⟨gzipped⟩] }

def handledSession : DelegatedSession :=
  { stage := .inner, received := [.connected, .message ⟨gzipped⟩], inner := [.connected, .message ⟨[104, 105]⟩] }

theorem handleOne_run : ∃ x, run (step {} (unstage storingFlate2 hiStages)) (withConfig {} ()) handleOne = some x ∧
    x.server.tasks[0]? = some handledTask ∧ x.handler.sessions[0]? = some handledSession := by
  have hrun : (run (step {} (unstage storingFlate2 hiStages)) (withConfig {} ()) handleOne).map
      (fun x => (x.server.tasks[0]?, x.handler.sessions[0]?)) = some (some handledTask, some handledSession) := by
    decide +kernel
  obtain ⟨x, hx, hends⟩ := Option.map_eq_some_iff.mp hrun
  exact ⟨x, hx, congrArg Prod.fst hends, congrArg Prod.snd hends⟩

theorem handler_sees_hi : SeesSession (unstage storingFlate2 hiStages) handledTask handledSession := by
  obtain ⟨x, hx, htask, hsession⟩ := handleOne_run
  obtain ⟨s, hs, hsees⟩ := handler_sees_sessions hx 0 handledTask htask
  rwa [Option.some.inj (hs.symm.trans hsession)] at hsees

/-- Where every peer message of a session has gone through the stages of a pipeline, the processor undoes them, and
no job is refused or cancelled, the inner handler sees what the peer sent before the stages, message by message; at
most the last one is still on its way, and nothing is logged as an error. -/
theorem handler_restores_messages {flate2 : Flate2} {stages : List Stage}
    (hflate2 : ∀ stage ∈ stages, stage.Lossless flate2) {x : HandledServer Unit}
    (hr : run (step config (unstage flate2 stages)) (withConfig config ()) es = some x)
    (hkeeps : ∀ e ∈ es, e.keepsJob = true) (i : Nat) (t : SessionTask) (hi : x.server.tasks[i]? = some t)
    (sent : List Callback) (hsent : List.Forall₂ (Encoded flate2 stages) sent t.log) :
    ∃ s, x.handler.sessions[i]? = some s ∧ s.errors = [] ∧
      ∃ rest, sent = s.inner ++ rest ∧ rest.length ≤ 1 ∧ (s.stage = .idle ∨ s.stage = .inner → rest = []) := by
  obtain ⟨-, s, pending, hs, hreceived, hdelegates, hpending⟩ := run_session hr hi
  have hkept : x.handler.Kept := by
    refine (run_handler (I := fun _ => True) (fun _ _ _ _ _ => trivial)
      (fun h e h' (hk : h.Kept) he hs => hk.step he hs) (fun de => DelegationEvent.keepsJob_of_not_own)
      (fun de hde => hkeeps _ hde) ⟨trivial, .fresh ()⟩ hr).2
  rw [← hreceived] at hsent
  obtain ⟨rest, hrest, hlength, herrors⟩ := Encoded.restored hflate2 hdelegates (hkept.errors i s hs) hsent
  refine ⟨s, hs, herrors, rest, hrest, ?_, fun hstage => ?_⟩
  · rw [hlength]
    cases pending <;> simp
  · rw [hpending hstage] at hlength
    exact List.length_eq_zero_iff.mp hlength

theorem handler_restores_hi :
    ∃ x s rest, run (step {} (unstage storingFlate2 hiStages)) (withConfig {} ()) handleOne = some x ∧
      x.handler.sessions[0]? = some s ∧ [.connected, .message ⟨[104, 105]⟩] = s.inner ++ rest ∧ rest.length ≤ 1 := by
  obtain ⟨x, hx, htask, -⟩ := handleOne_run
  have hsent : List.Forall₂ (Encoded storingFlate2 hiStages) [.connected, .message ⟨[104, 105]⟩] handledTask.log :=
    .cons trivial (.cons rfl .nil)
  obtain ⟨s, hs, -, rest, hrest, hlength, -⟩ :=
    handler_restores_messages (fun stage _ => storingFlate2_stage stage) hx (by decide) 0 handledTask htask _ hsent
  exact ⟨x, s, rest, hx, hs, hrest, hlength⟩

end NetworkSystem
