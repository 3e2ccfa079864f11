import NetworkSystem.Session.SessionCalls
import NetworkSystem.Wire.Lemmas.Receive

/-!
# A `receive` that is alone

The steps of a `receive` that finds its locks free compute what `Session.receive` of `Wire/Receive.lean`
computes in one go.
-/

namespace NetworkSystem

def ReceiveStage.result : ReceiveStage → Option (Except NetworkError Message)
  | .returned result => some result
  | _ => none

/-! ## The loop, read by read -/

/-- A loop that has ended goes on no further. -/
def LoopEnd.resume (assemblyTimeout : Nat) (r : LoopEnd) (read : Read) : LoopEnd :=
  match r.result with
  | some _ => r
  | none => resumeLoop assemblyTimeout read r.buf r.incoming

variable {assemblyTimeout elapsed : Nat} {reads : List Read} {buf incoming : Bytes} {r : LoopEnd}

theorem resume_of_ended {result : Except NetworkError Message} (h : r.result = some result) :
    reads.foldl (LoopEnd.resume assemblyTimeout) r = r := by
  induction reads with
  | nil => rfl
  | cons read reads ih =>
      have hresume : r.resume assemblyTimeout read = r := by simp only [LoopEnd.resume, h]
      rw [List.foldl_cons, hresume]
      exact ih

theorem receiveLoop_resume (assemblyTimeout elapsed : Nat) (reads : List Read) (buf incoming : Bytes) :
    receiveLoop assemblyTimeout elapsed reads buf incoming =
      reads.foldl (LoopEnd.resume assemblyTimeout) (receiveLoop assemblyTimeout elapsed [] buf incoming) := by
  induction reads generalizing elapsed buf incoming with
  | nil => rfl
  | cons read reads ih =>
      rcases receiveLoop_cases assemblyTimeout elapsed buf with h | ⟨h, hov⟩ | ⟨h, m, rest, hs⟩ | ⟨h, hov, hs⟩
      · rw [receiveLoop_timeout h, receiveLoop_timeout h, resume_of_ended rfl]
      · rw [receiveLoop_oversized h hov, receiveLoop_oversized h hov, resume_of_ended rfl]
      · rw [receiveLoop_frame h hs, receiveLoop_frame h hs, resume_of_ended rfl]
      · rw [receiveLoop_more h hov hs, receiveLoop_more h hov hs, List.foldl_cons]
        obtain ⟨outcome, elapsed'⟩ := read
        cases outcome with
        | timedOut => exact (resume_of_ended rfl).symm
        | failed err => exact (resume_of_ended rfl).symm
        | ready n =>
            simp only [LoopEnd.resume, resumeLoop]
            split
            · exact (resume_of_ended rfl).symm
            · exact ih elapsed' _ _

/-! ## The call, step by step -/

def ReceiveCall.events (call : ReceiveCall) : List ReceiveEvent :=
  .check call.started :: .lockBuffer :: .lockRead call.elapsed call.finished ::
    call.reads.map fun read => .read read call.finished

namespace SharedSession

variable {s : SharedSession}

/-- The call takes the steps that it can take. -/
def drive (r : SharedSession × ReceiveStage) (e : ReceiveEvent) : SharedSession × ReceiveStage :=
  (r.1.receiveStep r.2 e).getD r

/-- A call that takes no step any more stays where it is. -/
theorem drive_ended {stage : ReceiveStage} (hend : ∀ e, s.receiveStep stage e = none) (es : List ReceiveEvent) :
    es.foldl drive (s, stage) = (s, stage) := by
  induction es with
  | nil => rfl
  | cons e es ih =>
      have hstay : drive (s, stage) e = (s, stage) := by rw [drive, hend]; rfl
      rw [List.foldl_cons, hstay]
      exact ih

theorem drive_returned {result : Except NetworkError Message} (es : List ReceiveEvent) :
    es.foldl drive (s, .returned result) = (s, .returned result) :=
  drive_ended (fun _ => rfl) es

theorem drive_reads (finished : Nat) :
    (reads.map fun read => ReceiveEvent.read read finished).foldl drive (s.afterLoop finished r) =
      s.afterLoop finished (reads.foldl (LoopEnd.resume s.session.assemblyTimeout) r) := by
  induction reads generalizing r with
  | nil => rfl
  | cons read reads ih =>
      rw [List.map_cons, List.foldl_cons, List.foldl_cons]
      cases hr : r.result with
      | none =>
          have hstep : drive (s.afterLoop finished r) (.read read finished) =
              s.afterLoop finished (r.resume s.session.assemblyTimeout read) := by
            simp only [drive, afterLoop, hr, receiveStep, LoopEnd.resume, Option.getD_some]
            rfl
          rw [hstep]
          exact ih
      | some result =>
          have hresume : r.resume s.session.assemblyTimeout read = r := by simp only [LoopEnd.resume, hr]
          rw [hresume, ← ih]
          congr 1
          cases result <;> simp only [drive, afterLoop, hr, receiveStep, Option.getD_none]

/-- What a call has come to. -/
def Came (c : SharedSession × ReceiveStage)
    (r : Option (Except NetworkError Message) × Session × Bytes) : Prop :=
  c.2.result = r.1 ∧ c.1.session = r.2.1 ∧ c.1.incoming = r.2.2

theorem afterLoop_came (finished : Nat) (r : LoopEnd) : Came (s.afterLoop finished r)
    (match r.result with
      | some (.ok m) =>
          (some (.ok m), { s.session with readBuffer := r.buf, lastActivity := finished }, r.incoming)
      | res => (res, { s.session with readBuffer := r.buf }, r.incoming)) := by
  obtain ⟨result, buf, incoming⟩ := r
  rcases result with _ | err | m <;> exact ⟨rfl, rfl, rfl⟩

theorem drive_lockRead_gone (elapsed finished : Nat) (hread : s.readLocked = false)
    (hhalf : s.session.readHalf = false) :
    drive (s, .lockingRead) (.lockRead elapsed finished) = ({ s with bufferLocked := false },
      .returned (.error (.invalidState "Session read half is closed"))) := by
  simp [drive, receiveStep, hread, hhalf]

theorem drive_lockRead_panics (elapsed finished : Nat) (hread : s.readLocked = false)
    (hhalf : s.session.readHalf = true) (ho : s.session.overflows = true) :
    drive (s, .lockingRead) (.lockRead elapsed finished) = ({ s with bufferLocked := false }, .panicked) := by
  simp [drive, receiveStep, hread, hhalf, ho]

theorem drive_lockRead (elapsed finished : Nat) (hread : s.readLocked = false)
    (hhalf : s.session.readHalf = true) (ho : s.session.overflows = false) :
    drive (s, .lockingRead) (.lockRead elapsed finished) =
      { s with readLocked := true }.afterLoop finished
        (receiveLoop s.session.assemblyTimeout elapsed [] s.session.readBuffer s.incoming) := by
  simp [drive, receiveStep, hread, hhalf, ho]

/-- A `receive` that finds both locks free returns what `Session.receive` returns, and leaves the session and
the unread bytes as that does. -/
theorem receive_alone (call : ReceiveCall) (hbuffer : s.bufferLocked = false) (hread : s.readLocked = false) :
    Came (call.events.foldl drive (s, .entered)) (s.session.receive s.incoming call) := by
  unfold ReceiveCall.events Session.receive
  rw [List.foldl_cons]
  by_cases hactive : s.session.active = true
  · rw [if_neg (by simp [hactive])]
    by_cases hidle : s.session.isIdle call.started = true
    · have hcheck : drive (s, .entered) (.check call.started) =
          (s, .returned (.error (.timeout "Session idle timeout exceeded"))) := by
        simp [drive, receiveStep, hactive, hidle]
      rw [hcheck, drive_returned, if_pos hidle]
      exact ⟨rfl, rfl, rfl⟩
    · have hcheck : drive (s, .entered) (.check call.started) = (s, .lockingBuffer) := by
        simp [drive, receiveStep, hactive, hidle]
      have hlock : drive (s, .lockingBuffer) .lockBuffer =
          ({ s with bufferLocked := true }, .lockingRead) := by
        simp [drive, receiveStep, hbuffer]
      rw [hcheck, List.foldl_cons, hlock, List.foldl_cons, if_neg hidle]
      by_cases hhalf : s.session.readHalf = true
      · cases ho : s.session.overflows with
        | true =>
            have hdrive := drive_lockRead_panics (s := { s with bufferLocked := true }) call.elapsed call.finished
              hread hhalf ho
            rw [hdrive, drive_ended fun _ => rfl, if_neg (by simp [hhalf]), if_pos rfl]
            exact ⟨rfl, rfl, rfl⟩
        | false =>
            have hdrive := drive_lockRead (s := { s with bufferLocked := true }) call.elapsed call.finished
              hread hhalf ho
            rw [hdrive, drive_reads, if_neg (by simp [hhalf]), if_neg Bool.false_ne_true,
              receiveLoop_resume _ _ call.reads]
            exact afterLoop_came _ _
      · have hgone : s.session.readHalf = false := by simpa using hhalf
        have hdrive := drive_lockRead_gone (s := { s with bufferLocked := true }) call.elapsed call.finished
          hread hgone
        rw [hdrive, drive_returned, if_pos (by simp [hhalf])]
        exact ⟨rfl, rfl, rfl⟩
  · have hcheck : drive (s, .entered) (.check call.started) =
        (s, .returned (.error (.invalidState "Session is not active"))) := by
      simp [drive, receiveStep, hactive]
    rw [hcheck, drive_returned, if_pos (by simp [hactive])]
    exact ⟨rfl, rfl, rfl⟩

end SharedSession

end NetworkSystem
