import NetworkSystem.Processor.Processors
import NetworkSystem.Server.SessionTask
import Mathlib.Data.List.Forall2

/-!
# The thread pool handler

`ThreadPoolSessionHandler` of `src/integration/thread_pool.rs`, as the tasks of all sessions call it. The pool of
`rust_thread_system` may refuse a job; a job that it takes is run at most once, at any time and by any worker, or
is dropped. `tx` and `rx` are the halves of a oneshot channel, and a job is named by its place in the list of
those that the pool has taken.
-/

namespace NetworkSystem

inductive Job where
  | queued (message : Message)
  /-- `process` has returned, and `tx.send` was called with the result. -/
  | sent (result : Except NetworkError Message)
  /-- `tx` was dropped: the pool has dropped the job, or `process` has panicked. -/
  | cancelled
  deriving Repr

/-- What `on_message` writes to the log in place of a call of the inner handler. -/
inductive DelegationError where
  | submit (e : String)
  | process (e : NetworkError)
  | cancelled
  deriving Repr, DecidableEq

inductive DelegationStage where
  | idle
  | submitting (message : Message)
  /-- `rx.await`. -/
  | waiting (job : Nat)
  /-- The inner handler runs. -/
  | inner
  /-- The task of the session was torn down. -/
  | gone
  deriving Repr, DecidableEq

/-- One session: the callbacks that its task has made, and those that the inner handler has seen. -/
structure DelegatedSession where
  stage : DelegationStage := .idle
  received : List Callback := []
  inner : List Callback := []
  errors : List DelegationError := []
  deriving Repr, DecidableEq

namespace DelegatedSession

def handOn (s : DelegatedSession) (c : Callback) : DelegatedSession :=
  { s with stage := .inner, inner := s.inner ++ [c] }

def report (s : DelegatedSession) (e : DelegationError) : DelegatedSession :=
  { s with stage := .idle, errors := s.errors ++ [e] }

/-- `on_connected`, `on_message` or `on_disconnected` is called. -/
def call (s : DelegatedSession) (c : Callback) : Option DelegatedSession :=
  if s.stage = .idle then
    let s := { s with received := s.received ++ [c] }
    match c with
    | .connected | .disconnected => some (s.handOn c)
    | .message message => some { s with stage := .submitting message }
  else none

/-- The match on what `rx.await` gives. -/
def resume (s : DelegatedSession) : Job → Option DelegatedSession
  | .queued _ => none
  | .sent (.ok message) => some (s.handOn (.message message))
  | .sent (.error e) => some (s.report (.process e))
  | .cancelled => some (s.report .cancelled)

end DelegatedSession

/-- The processor acts on a world that all jobs share. -/
structure ThreadPoolHandler (W : Type) where
  world : W
  jobs : List Job := []
  sessions : List DelegatedSession := []

inductive DelegationEvent where
  /-- A session that has made no callback. -/
  | accept
  | call (i : Nat) (c : Callback)
  /-- `thread_pool.execute` takes the job or refuses it. -/
  | submit (i : Nat) (refused : Option String)
  /-- A worker runs a job. -/
  | work (job : Nat)
  | cancel (job : Nat)
  | resume (i : Nat)
  /-- The inner handler returns. -/
  | finish (i : Nat)
  | tearDown (i : Nat)
  deriving Repr, DecidableEq

namespace ThreadPoolHandler

variable {W : Type}

def onSession (h : ThreadPoolHandler W) (i : Nat) (f : DelegatedSession → Option DelegatedSession) :
    Option (ThreadPoolHandler W) :=
  (h.sessions[i]?).bind fun s => (f s).map fun s => { h with sessions := h.sessions.set i s }

/-- The call of `thread_pool.execute`, and the match on its result. -/
def submit (h : ThreadPoolHandler W) (i : Nat) (refused : Option String) : Option (ThreadPoolHandler W) :=
  (h.sessions[i]?).bind fun s =>
    match s.stage, refused with
    | .submitting _, some e => some { h with sessions := h.sessions.set i (s.report (.submit e)) }
    | .submitting message, none =>
        some { h with
          jobs := h.jobs ++ [.queued message]
          sessions := h.sessions.set i { s with stage := .waiting h.jobs.length } }
    | _, _ => none

/-- The closure that `execute` was given. -/
def work (process : MessageProcessor W) (h : ThreadPoolHandler W) (job : Nat) : Option (ThreadPoolHandler W) :=
  (h.jobs[job]?).bind fun
    | .queued message =>
        match process message h.world with
        | .ok message world => some { h with world, jobs := h.jobs.set job (.sent (.ok message)) }
        | .error e world => some { h with world, jobs := h.jobs.set job (.sent (.error e)) }
    | _ => none

/-- The pool drops the job, or its `process` panics; here a `process` that panics has left the world as it was. -/
def cancel (h : ThreadPoolHandler W) (job : Nat) : Option (ThreadPoolHandler W) :=
  (h.jobs[job]?).bind fun
    | .queued _ => some { h with jobs := h.jobs.set job .cancelled }
    | _ => none

def resume (h : ThreadPoolHandler W) (i : Nat) : Option (ThreadPoolHandler W) :=
  h.onSession i fun s =>
    match s.stage with
    | .waiting job => (h.jobs[job]?).bind s.resume
    | _ => none

def step (process : MessageProcessor W) (h : ThreadPoolHandler W) : DelegationEvent → Option (ThreadPoolHandler W)
  | .accept => some { h with sessions := h.sessions ++ [{}] }
  | .call i c => h.onSession i (·.call c)
  | .submit i refused => h.submit i refused
  | .work job => h.work process job
  | .cancel job => h.cancel job
  | .resume i => h.resume i
  | .finish i => h.onSession i fun s => if s.stage = .inner then some { s with stage := .idle } else none
  | .tearDown i => h.onSession i fun s => some { s with stage := .gone }

end ThreadPoolHandler

/-- No job is refused or cancelled. -/
def DelegationEvent.keepsJob : DelegationEvent → Bool
  | .submit _ (some _) | .cancel _ => false
  | _ => true

/-! ## What becomes of a callback -/

inductive Delegation where
  | inner (c : Callback)
  | error (e : DelegationError)
  deriving Repr, DecidableEq

namespace Delegation

/-- The inner handler sees what the processor has made of a message, or the log says why it does not. -/
def Of {W : Type} (process : MessageProcessor W) : Callback → Delegation → Prop
  | .message m, .inner (.message m') => ∃ w w', process m w = .ok m' w'
  | .message m, .error (.process e) => ∃ w w', process m w = .error e w'
  | .message _, .error _ => True
  | c, .inner c' => c' = c
  | _, .error _ => False

def seen : Delegation → Option Callback
  | inner c => some c
  | error _ => none

def reported : Delegation → Option DelegationError
  | inner _ => none
  | error e => some e

end Delegation

/-- Every callback of the session but a message that is on its way has one fate, and the inner handler and the log
show these in the order of the callbacks. -/
def DelegatedSession.Delegates {W : Type} (process : MessageProcessor W) (s : DelegatedSession)
    (pending : Option Message) : Prop :=
  ∃ (settled : List Callback) (fates : List Delegation),
    s.received = settled ++ (pending.map Callback.message).toList ∧
    List.Forall₂ (Delegation.Of process) settled fates ∧ s.inner = fates.filterMap Delegation.seen ∧
    s.errors = fates.filterMap Delegation.reported

end NetworkSystem
