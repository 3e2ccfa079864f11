import NetworkSystem.Lib.Steps
import NetworkSystem.Server.SessionTask
import NetworkSystem.Wire.Lemmas.Receive

/-!
# The session of a session task

A session task keeps of its session what `close` takes. Its steps around `receive` follow the calls of
`Session::receive`: each call that returns or panics is a run of the task.
-/

namespace NetworkSystem

open Steps

def Session.io (s : Session) : SessionIo := ⟨s.active, s.writeHalf, s.readHalf⟩

namespace SessionTask

def stepBooks (readTimeout i : Nat) (r : Books × SessionTask) (e : TaskEvent) : Option (Books × SessionTask) :=
  r.2.step readTimeout i r.1 e

/-- The steps of the task for a call of `receive` that returns. -/
def receiveEvents : Except NetworkError Message → List TaskEvent
  | .ok m => [.go, .go, .receive m]
  | .error _ => [.receiveFailed]

def received (b : Books) (t : SessionTask) : Except NetworkError Message → Books × SessionTask
  | .ok m => t.callback b (.message m) .onMessage
  | .error _ => (b, { t with stage := .broken })

end SessionTask

variable {i : Nat} {b : Books} {t : SessionTask} {s : Session} {incoming : Bytes} {call : ReceiveCall}

/-- A call that returns a message finds the session open. -/
theorem Session.receive_ok {m : Message} (h : (s.receive incoming call).1 = some (.ok m)) :
    s.io.active = true ∧ s.io.readHalf = true ∧ s.overflows = false := by
  rcases s.receive_cases incoming call with ⟨e, he⟩ | ⟨_, he⟩ | ⟨ha, _, hr, ho⟩
  · rw [he] at h; cases h
  · rw [he] at h; cases h
  · exact ⟨ha, hr, ho⟩

/-- The task of an open session calls `receive`, which waits for its locks. -/
theorem SessionTask.go_receiving (hp : t.polled = true) (hst : t.stage = .looping) (hs : t.session = some s.io)
    (ha : s.io.active = true) :
    stepBooks s.readTimeout i (b, t) .go = some (b, { t with stage := .receiving }) := by
  simp only [stepBooks, step, go, hp, hst, hs, Option.any_some, ha, if_true]

/-- Every call of `receive` that returns is a run of the task. -/
theorem SessionTask.receive_returns {result : Except NetworkError Message} (hp : t.polled = true)
    (hst : t.stage = .looping) (hs : t.session = some s.io)
    (h : (s.receive incoming call).1 = some result) :
    run (stepBooks s.readTimeout i) (b, t) (receiveEvents result) = some (t.received b result) := by
  cases result with
  | error err =>
      simp only [receiveEvents, received, run_cons, run_nil, stepBooks, step, hp, hst, BEq.rfl,
        Bool.and_true, Bool.true_or, if_true, Option.bind_some]
  | ok m =>
      obtain ⟨ha, hr, ho⟩ := Session.receive_ok h
      have hno : assemblyOverflows s.readTimeout = false := ho
      have hread : stepBooks s.readTimeout i (b, { t with stage := .receiving }) .go =
          some (b, { t with stage := .reading }) := by
        simp only [stepBooks, step, go, hp, hs, Option.any_some, hr, hno, if_true, Bool.false_eq_true, if_false]
      have hmessage : stepBooks s.readTimeout i (b, { t with stage := .reading }) (.receive m) =
          some (t.callback b (.message m) .onMessage) := if_pos (by rw [hp]; rfl)
      simp only [receiveEvents, run_cons, go_receiving hp hst hs ha, hread, hmessage, Option.bind_some, run_nil]
      rfl

/-- A call of `receive` that panics ends the task. -/
theorem SessionTask.receive_panics (hp : t.polled = true) (hst : t.stage = .looping) (hs : t.session = some s.io)
    (h : s.receivePanics call = true) : (s.receive incoming call).1 = none ∧
      run (stepBooks s.readTimeout i) (b, t) [.go, .overflow] =
        some (finish b { t with stage := .receiving } .panicked) := by
  refine ⟨by rw [Session.receive_panics incoming h], ?_⟩
  simp only [Session.receivePanics, Bool.and_eq_true] at h
  obtain ⟨⟨⟨ha, -⟩, hr⟩, ho⟩ := h
  have hhalf : s.io.readHalf = true := hr
  have hover : assemblyOverflows s.readTimeout = true := ho
  have hpanic : stepBooks s.readTimeout i (b, { t with stage := .receiving }) .overflow =
      some (finish b { t with stage := .receiving } .panicked) := by
    simp only [stepBooks, step, hp, hs, Option.any_some, hhalf, hover, BEq.rfl, Bool.and_true, if_true]
  simp only [run_cons, go_receiving hp hst hs ha, hpanic, Option.bind_some, run_nil]

/-- On a session that is closed the task leaves its loop, as every call fails. -/
theorem SessionTask.receive_closed (hp : t.polled = true) (hst : t.stage = .looping)
    (hs : t.session = some s.io) (ha : s.active = false) :
    (∃ err, (s.receive incoming call).1 = some (.error err)) ∧
      stepBooks s.readTimeout i (b, t) .go = some (b, { t with stage := .broken }) := by
  constructor
  · obtain ⟨err, h⟩ : ∃ e, s.receive incoming call = (some (.error e), s, incoming) :=
      Session.receive_refused fun h => by rw [ha] at h; cases h.1
    exact ⟨err, by rw [h]⟩
  · have hio : s.io.active = false := ha
    simp only [stepBooks, step, go, hp, hst, hs, Option.any_some, hio, if_true, Bool.false_eq_true,
      if_false]

end NetworkSystem
