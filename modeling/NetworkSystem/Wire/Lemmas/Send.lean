import NetworkSystem.Wire.Send
import Mathlib.Algebra.Order.Monoid.Prod
import Mathlib.Data.Multiset.OrderedMonoid

/-!
# The calls that send, as writers of frames

`WireStep` says what one step of a call may do to the connection, whichever function the call runs. The
steps of `Session::send`, `TcpClient::send` and `TcpClient::try_send` are all of that kind, and the
invariants of the connection are proved for `WireStep` only.
-/

namespace NetworkSystem

open FrameWriter TaskPool Steps

/-! ## Stages -/

def SendStage.early : SendStage → Bool
  | .entered | .locking _ => true
  | _ => false

/-- The call holds the mutex, and its frame is in flight. -/
def SendStage.holds : SendStage → Bool
  | .waiting | .trying | .writing => true
  | _ => false

def SendStage.sent : SendStage → Bool
  | .returned (.ok _) => true
  | _ => false

/-- The bytes that a call has ready for its write are the frame of its message. -/
def SendCall.Encoded (c : SendCall) : Prop :=
  ∀ data, c.stage = .locking data → c.message.encode = .ok data

/-- What a step of a call does to the connection, and the step of the writer that it is. -/
inductive WireStep (w : Wire) (c : SendCall) : Option (FrameWriter.Event Message) → Wire → SendCall → Prop
  | front {stage : SendStage} (hc : c.stage.early = true) (hh : stage.holds = false)
      (hs : stage.sent = false) (he : (c.advance stage).Encoded) : WireStep w c none w (c.advance stage)
  | stay {stage : SendStage} (hc : c.stage.holds = true) (hh : stage.holds = true) :
      WireStep w c none w (c.advance stage)
  | begin {stage : SendStage} {data : Bytes} {w' : Wire} (hc : c.stage = .locking data)
      (hh : stage.holds = true) (h : w.begin c.message data = some w') :
      WireStep w c (some (.begin c.message)) w' (c.advance stage)
  | put {stage : SendStage} {k : Nat} {w' : Wire} (hc : c.stage.holds = true) (hh : stage.holds = true)
      (h : w.put k = some w') : WireStep w c (some (.put k)) w' (c.advance stage)
  | finish {w' : Wire} (hc : c.stage.holds = true) (h : w.finish = some w') :
      WireStep w c (some .finish) w' (c.advance (.returned (.ok ())))
  | abandon {stage : SendStage} {w' : Wire} (hc : c.stage.holds = true) (hh : stage.holds = false)
      (hl : stage.early = false) (hs : stage.sent = false) (h : w.abandon = some w') :
      WireStep w c (some .abandon) w' (c.advance stage)

/-- A step of a call is a step of the writer, and only an event that writes puts bytes. -/
def StepsWire (w : Wire) (c : SendCall) (e : SendEvent) (w' : Wire) (c' : SendCall) : Prop :=
  ∃ ev, WireStep w c ev w' c' ∧ ∀ k, ev = some (.put k) → e.writes = true

/-! ## The source's steps -/

variable {w w' : Wire} {c c' : SendCall} {e : SendEvent}

theorem SendStage.encoded_of_late {stage : SendStage} (h : stage.early = false) :
    (c.advance stage).Encoded := by
  rintro data (rfl : stage = .locking data)
  cases h

theorem fail_step (hc : c.stage.early = true) (err : NetworkError) : StepsWire w c e w (c.fail err) :=
  ⟨none, .front hc rfl rfl (SendStage.encoded_of_late rfl), by simp⟩

theorem abandon_step {stage : SendStage} (hc : c.stage.holds = true) (hh : stage.holds = false)
    (hl : stage.early = false) (hs : stage.sent = false)
    (h : (w.abandon.map fun w => (w, c.advance stage)) = some (w', c')) : StepsWire w c e w' c' := by
  obtain ⟨v, hv, hr⟩ := Option.map_eq_some_iff.mp h
  cases hr
  exact ⟨_, .abandon hc hh hl hs hv, by simp⟩

theorem writeAll_step {texts : WriteTexts} (hc : c.stage.holds = true)
    (h : writeAll texts w c e = some (w', c')) : StepsWire w c e w' c' := by
  cases e with
  | put k =>
      obtain ⟨v, hv, hr⟩ := Option.map_eq_some_iff.mp h
      cases hr
      have hput : WireStep w c (some (.put k)) w' (c.advance c.stage) := .put hc hc hv
      exact ⟨_, hput, fun _ _ => rfl⟩
  | done now =>
      obtain ⟨v, hv, hr⟩ := Option.map_eq_some_iff.mp h
      cases hr
      exact ⟨_, .finish hc hv, by simp⟩
  | timedOut => exact abandon_step hc rfl rfl rfl h
  | failed err => exact abandon_step hc rfl rfl rfl h
  | drop => exact abandon_step hc rfl rfl rfl h
  | _ => cases h

theorem lockAndBegin_step {data : Bytes} {stage : SendStage} (hc : c.stage = .locking data)
    (hh : stage.holds = true) (h : lockAndBegin w c data stage = some (w', c')) :
    StepsWire w c e w' c' := by
  obtain ⟨v, hv, hr⟩ := Option.map_eq_some_iff.mp h
  cases hr
  exact ⟨_, .begin hc hh hv, by simp⟩

theorem encode_step {data : Bytes} (hc : c.stage.early = true) (he : c.message.encode = .ok data) :
    StepsWire w c e w (c.advance (.locking data)) := by
  refine ⟨none, .front hc rfl rfl ?_, by simp⟩
  intro d hd
  cases hd
  exact he

theorem waitWritable_step (hc : c.stage.holds = true)
    (h : TcpClient.waitWritable w c e = some (w', c')) : StepsWire w c e w' c' := by
  cases e with
  | writable => cases h; exact ⟨_, .stay hc rfl, by simp⟩
  | notWritable err =>
      cases err with
      | none => exact abandon_step hc rfl rfl rfl h
      | some err => exact abandon_step hc rfl rfl rfl h
  | drop => exact abandon_step hc rfl rfl rfl h
  | _ => cases h

theorem tryWrite_step (hc : c.stage.holds = true)
    (h : TcpClient.tryWrite w c e = some (w', c')) : StepsWire w c e w' c' := by
  cases e with
  | tryWrite n =>
      cases n with
      | zero => cases h; exact ⟨_, .stay hc rfl, by simp⟩
      | succ n =>
          obtain ⟨v, hv, hr⟩ := Option.map_eq_some_iff.mp h
          cases hr
          exact ⟨_, .put hc rfl hv, fun _ _ => rfl⟩
  | wouldBlock => exact abandon_step hc rfl rfl rfl h
  | tryFailed err => exact abandon_step hc rfl rfl rfl h
  | _ => cases h

theorem Session.sendStep_wire {s s' : SessionWire} (h : Session.sendStep s c e = some (s', c')) :
    StepsWire s.wire c e s'.wire c' := by
  unfold Session.sendStep at h
  cases hst : c.stage with
  | entered =>
      have hc : c.stage.early = true := by rw [hst]; rfl
      simp only [hst] at h
      cases e with
      | check now =>
          simp only at h
          split at h
          · cases h; exact fail_step hc _
          · split at h
            · cases h; exact fail_step hc _
            · cases he : c.message.encode with
              | error err => simp only [he] at h; cases h; exact fail_step hc _
              | ok data => simp only [he] at h; cases h; exact encode_step hc he
      | _ => cases h
  | locking data =>
      have hc : c.stage.early = true := by rw [hst]; rfl
      simp only [hst] at h
      cases e with
      | lock =>
          simp only at h
          split at h
          · cases h
          · split at h
            · cases h; exact fail_step hc _
            · obtain ⟨r, hr, he⟩ := Option.map_eq_some_iff.mp h
              cases he
              exact lockAndBegin_step hst rfl hr
      | drop => cases h; exact ⟨none, .front hc rfl rfl (SendStage.encoded_of_late rfl), by simp⟩
      | _ => cases h
  | writing =>
      have hc : c.stage.holds = true := by rw [hst]; rfl
      simp only [hst] at h
      obtain ⟨r, hr, he⟩ := Option.map_eq_some_iff.mp h
      have hw := writeAll_step hc hr
      cases e with
      | done now => cases he; exact hw
      | _ => cases he; exact hw
  | _ => simp only [hst] at h; cases h

theorem TcpClient.sendStep_wire {s s' : ClientWire} (h : TcpClient.sendStep s c e = some (s', c')) :
    StepsWire s.wire c e s'.wire c' := by
  unfold TcpClient.sendStep at h
  cases hst : c.stage with
  | entered =>
      have hc : c.stage.early = true := by rw [hst]; rfl
      simp only [hst] at h
      cases e with
      | check now =>
          simp only [Option.some.injEq, TcpClient.sendCheck] at h
          split at h
          · cases h; exact fail_step hc _
          · cases he : c.message.encode with
            | error err => simp only [he] at h; cases h; exact fail_step hc _
            | ok data => simp only [he] at h; cases h; exact encode_step hc he
      | _ => cases h
  | locking data =>
      have hc : c.stage.early = true := by rw [hst]; rfl
      simp only [hst] at h
      cases e with
      | lock =>
          simp only at h
          split at h
          · cases h
          · split at h
            · cases h; exact fail_step hc _
            · obtain ⟨r, hr, he⟩ := Option.map_eq_some_iff.mp h
              cases he
              exact lockAndBegin_step hst (by cases c.kind <;> rfl) hr
      | drop => cases h; exact ⟨none, .front hc rfl rfl (SendStage.encoded_of_late rfl), by simp⟩
      | _ => cases h
  | waiting =>
      simp only [hst] at h
      obtain ⟨r, hr, he⟩ := Option.map_eq_some_iff.mp h
      cases he
      exact waitWritable_step (by rw [hst]; rfl) hr
  | trying =>
      simp only [hst] at h
      obtain ⟨r, hr, he⟩ := Option.map_eq_some_iff.mp h
      cases he
      exact tryWrite_step (by rw [hst]; rfl) hr
  | writing =>
      simp only [hst] at h
      obtain ⟨r, hr, he⟩ := Option.map_eq_some_iff.mp h
      cases he
      exact writeAll_step (by rw [hst]; rfl) hr
  | _ => simp only [hst] at h; cases h

/-! ## What the calls account for -/

/-- The calls that are past the lock. -/
def begunBy (c : SendCall) : Multiset Message := if c.stage.early then 0 else {c.message}

/-- The calls that returned `Ok`, and the calls that hold the mutex. -/
def sentBy (c : SendCall) : Multiset Message × Multiset Message :=
  (if c.stage.sent then {c.message} else 0, if c.stage.holds then {c.message} else 0)

/-- What the wire has delivered, and what is in flight on it. -/
def Wire.ledger (w : Wire) : Multiset Message × Multiset Message :=
  (w.delivered, (w.inFlight.map InFlight.item).toList)

theorem SendStage.not_early_of_holds {stage : SendStage} (h : stage.holds = true) :
    stage.early = false := by
  cases stage <;> first | rfl | cases h

theorem SendStage.not_sent_of_holds {stage : SendStage} (h : stage.holds = true) :
    stage.sent = false := by
  cases stage <;> first | rfl | cases h

theorem SendStage.not_holds_of_early {stage : SendStage} (h : stage.early = true) :
    stage.holds = false := by
  cases stage <;> first | rfl | cases h

theorem SendStage.not_sent_of_early {stage : SendStage} (h : stage.early = true) :
    stage.sent = false := by
  cases stage <;> first | rfl | cases h

@[simp]
theorem SendCall.advance_message (c : SendCall) (stage : SendStage) :
    (c.advance stage).message = c.message := rfl

theorem begunBy_early (h : c.stage.early = true) : begunBy c = 0 := if_pos h

theorem begunBy_late (h : c.stage.early = false) : begunBy c = {c.message} := if_neg (by simp [h])

theorem sentBy_holds (h : c.stage.holds = true) : sentBy c = (0, {c.message}) := by
  rw [sentBy, h, SendStage.not_sent_of_holds h]; rfl

theorem sentBy_idle (hh : c.stage.holds = false) (hs : c.stage.sent = false) : sentBy c = 0 := by
  rw [sentBy, hh, hs]; rfl

theorem sentBy_sent (hh : c.stage.holds = false) (hs : c.stage.sent = true) :
    sentBy c = ({c.message}, 0) := by
  rw [sentBy, hh, hs]; rfl

theorem Wire.begin_eq {a : Message} {data : Bytes} (h : w.begin a data = some w') :
    w'.ledger = w.ledger + (0, {a}) ∧ (w'.begun : Multiset Message) = w.begun + {a} := by
  unfold Writer.begin at h
  split at h
  · rename_i hn
    cases h
    simp [Wire.ledger, hn, ← Multiset.coe_add]
  · cases h

theorem Wire.put_eq {k : Nat} (h : w.put k = some w') :
    w'.ledger = w.ledger ∧ w'.begun = w.begun := by
  unfold Writer.put at h
  split at h
  · cases h
  · rename_i f hf
    split at h
    · cases h; simp [Wire.ledger, hf]
    · cases h

theorem Wire.finish_eq (h : w.finish = some w') :
    ∃ a, w.ledger.2 = {a} ∧ w'.ledger = (w.ledger.1 + {a}, 0) ∧ w'.begun = w.begun := by
  unfold Writer.finish at h
  split at h
  · cases h
  · rename_i f hf
    split at h
    · cases h
      exact ⟨f.item, by simp [Wire.ledger, hf], by simp [Wire.ledger, ← Multiset.coe_add], rfl⟩
    · cases h

theorem Wire.abandon_eq (h : w.abandon = some w') :
    ∃ a, w.ledger.2 = {a} ∧ w'.ledger = (w.ledger.1, 0) ∧ w'.begun = w.begun := by
  unfold Writer.abandon at h
  split at h
  · cases h
  · rename_i f hf
    split at h
    · cases h
    · cases h
      exact ⟨f.item, by simp [Wire.ledger, hf], by simp [Wire.ledger], rfl⟩

theorem WireStep.begun {ev : Option (FrameWriter.Event Message)} (h : WireStep w c ev w' c') :
    (w'.begun : Multiset Message) + begunBy c ≤ w.begun + begunBy c' := by
  cases h with
  | front hc hh hs he => rw [begunBy_early hc]; simp
  | stay hc hh =>
      rw [begunBy_late (SendStage.not_early_of_holds hc),
        begunBy_late (c := c.advance _) (SendStage.not_early_of_holds hh), SendCall.advance_message]
  | begin hc hh h =>
      rw [(Wire.begin_eq h).2, begunBy_early (by rw [hc]; rfl),
        begunBy_late (c := c.advance _) (SendStage.not_early_of_holds hh), SendCall.advance_message]
      simp
  | put hc hh h =>
      rw [(Wire.put_eq h).2, begunBy_late (SendStage.not_early_of_holds hc),
        begunBy_late (c := c.advance _) (SendStage.not_early_of_holds hh), SendCall.advance_message]
  | finish hc h =>
      obtain ⟨a, _, _, hb⟩ := Wire.finish_eq h
      rw [hb, begunBy_late (SendStage.not_early_of_holds hc), begunBy_late rfl, SendCall.advance_message]
  | abandon hc hh hl hs h =>
      obtain ⟨a, _, _, hb⟩ := Wire.abandon_eq h
      rw [hb, begunBy_late (SendStage.not_early_of_holds hc), begunBy_late (c := c.advance _) hl,
        SendCall.advance_message]

/-- What is delivered was sent by the calls that returned `Ok`, and what is in flight belongs to the call
that holds the mutex. -/
theorem WireStep.ledger {ev : Option (FrameWriter.Event Message)} (h : WireStep w c ev w' c')
    (hle : sentBy c ≤ w.ledger) : w'.ledger + sentBy c = w.ledger + sentBy c' := by
  -- a call that holds the mutex has its own message in flight
  have hown : ∀ a, c.stage.holds = true → w.ledger.2 = {a} → a = c.message := by
    intro a hc ha
    have hle2 : {c.message} ≤ w.ledger.2 := by
      have := hle.2
      rwa [sentBy_holds hc] at this
    rw [ha, Multiset.singleton_le, Multiset.mem_singleton] at hle2
    exact hle2.symm
  cases h with
  | front hc hh hs he =>
      rw [sentBy_idle (SendStage.not_holds_of_early hc) (SendStage.not_sent_of_early hc),
        sentBy_idle (c := c.advance _) hh hs]
  | stay hc hh => rw [sentBy_holds hc, sentBy_holds (c := c.advance _) hh, SendCall.advance_message]
  | begin hc hh h =>
      rw [(Wire.begin_eq h).1, sentBy_idle (by rw [hc]; rfl) (by rw [hc]; rfl),
        sentBy_holds (c := c.advance _) hh, SendCall.advance_message, add_zero]
  | put hc hh h =>
      rw [(Wire.put_eq h).1, sentBy_holds hc, sentBy_holds (c := c.advance _) hh,
        SendCall.advance_message]
  | finish hc h =>
      obtain ⟨a, ha, hl, _⟩ := Wire.finish_eq h
      obtain rfl := hown a hc ha
      rw [hl, sentBy_holds hc, sentBy_sent rfl rfl, SendCall.advance_message]
      ext1
      · simp
      · simp [ha]
  | abandon hc hh hl hs h =>
      obtain ⟨a, ha, hled, _⟩ := Wire.abandon_eq h
      obtain rfl := hown a hc ha
      rw [hled, sentBy_holds hc, sentBy_idle (c := c.advance _) hh hs]
      ext1
      · simp
      · simp [ha]

theorem WireStep.encoded {ev : Option (FrameWriter.Event Message)} (h : WireStep w c ev w' c') :
    c'.Encoded := by
  cases h with
  | front hc hh hs he => exact he
  | stay hc hh => exact SendStage.encoded_of_late (SendStage.not_early_of_holds hh)
  | begin hc hh h => exact SendStage.encoded_of_late (SendStage.not_early_of_holds hh)
  | put hc hh h => exact SendStage.encoded_of_late (SendStage.not_early_of_holds hh)
  | finish hc h => exact SendStage.encoded_of_late rfl
  | abandon hc hh hl hs h => exact SendStage.encoded_of_late hl

/-- A step of a call is a step of the writer of message frames, or leaves the connection alone. -/
theorem WireStep.writer {ev : Option (FrameWriter.Event Message)} (h : WireStep w c ev w' c')
    (henc : c.Encoded) :
    (ev = none ∧ w' = w) ∨ ∃ e, ev = some e ∧ (∀ a, e = .begin a → messageCode.Valid a) ∧
      FrameWriter.step messageCode w e = some w' := by
  cases h with
  | front hc hh hs he => exact Or.inl ⟨rfl, rfl⟩
  | stay hc hh => exact Or.inl ⟨rfl, rfl⟩
  | begin hc hh h =>
      obtain ⟨hm, hdata⟩ := Message.encode_eq_ok.mp (henc _ hc)
      subst hdata
      refine Or.inr ⟨_, rfl, ?_, h⟩
      intro a ha
      cases ha
      exact hm
  | put hc hh h => exact Or.inr ⟨_, rfl, nofun, h⟩
  | finish hc h => exact Or.inr ⟨_, rfl, nofun, h⟩
  | abandon hc hh hl hs h => exact Or.inr ⟨_, rfl, nofun, h⟩

theorem WireStep.intact {ev : Option (FrameWriter.Event Message)} (h : WireStep w c ev w' c')
    (henc : c.Encoded) (hput : ∀ k, ev = some (.put k) → w.torn = false)
    (hw : Intact messageCode w) : Intact messageCode w' := by
  rcases h.writer henc with ⟨_, rfl⟩ | ⟨e, rfl, hvalid, hstep⟩
  · exact hw
  · exact hw.step hvalid (fun k hk => hput k (by rw [hk])) hstep

/-! ## Pools of calls that send -/

def Sends {σ κ : Type} (P : Program σ SendCall κ SendEvent) (wire : σ → Wire) : Prop :=
  (∀ k, (P.start k).stage = .entered) ∧
    ∀ s c e s' c', P.act s c e = some (s', c') → StepsWire (wire s) c e (wire s') c'

theorem sessionSends_sends : Sends sessionSends SessionWire.wire :=
  ⟨fun _ => rfl, fun _ _ _ _ _ => Session.sendStep_wire⟩

theorem clientSends_sends : Sends clientSends ClientWire.wire :=
  ⟨fun _ => rfl, fun _ _ _ _ _ => TcpClient.sendStep_wire⟩

section Pool

variable {σ κ : Type} {P : Program σ SendCall κ SendEvent} {wire : σ → Wire} {p p' : Pool σ SendCall}

structure Sending (wire : σ → Wire) (p : Pool σ SendCall) : Prop where
  intact : Intact messageCode (wire p.shared)
  encoded : ∀ c ∈ p.tasks, c.Encoded
  begun : ((wire p.shared).begun : Multiset Message) ≤ p.total begunBy
  ledger : (wire p.shared).ledger = p.total sentBy

theorem Sending.step (hP : Sends P wire) (h : Sending wire p) {e : TaskPool.Event κ SendEvent}
    (hC : NothingBehindTorn wire p e) (hs : P.step p e = some p') : Sending wire p' := by
  refine ⟨?_, ?_, ?_, ?_⟩
  · cases e with
    | spawn k => rw [Program.step_spawn] at hs; cases hs; exact h.intact
    | act i e =>
        obtain ⟨c, s', c', hc, ha, rfl⟩ := Program.step_act.mp hs
        obtain ⟨ev, hstep, hput⟩ := hP.2 _ _ _ _ _ ha
        refine hstep.intact (h.encoded c (List.mem_of_getElem? hc)) ?_ h.intact
        intro k hk
        exact hC (hput k hk)
  · refine Program.forall_tasks (I := fun _ c => c.Encoded) ?_ ?_ ?_ hs h.encoded
    · intro s c e s' c' ha _
      obtain ⟨ev, hstep, _⟩ := hP.2 _ _ _ _ _ ha
      exact hstep.encoded
    · intro s c e s' c' u _ _ hu
      exact hu
    · intro s k data hd
      rw [hP.1 k] at hd
      cases hd
  · refine Program.bounded (f := fun s => ((wire s).begun : Multiset Message)) ?_ hs h.begun
    intro s c e s' c' ha
    obtain ⟨ev, hstep, _⟩ := hP.2 _ _ _ _ _ ha
    exact hstep.begun
  · refine Program.accounts (f := fun s => (wire s).ledger) ?_ ?_ hs h.ledger
    · intro s c e s' c' hle ha
      obtain ⟨ev, hstep, _⟩ := hP.2 _ _ _ _ _ ha
      exact hstep.ledger hle
    · intro k
      simp [sentBy, hP.1 k, SendStage.sent, SendStage.holds]

theorem begunBy_le (c : SendCall) : begunBy c ≤ {c.message} := by
  unfold begunBy
  split
  · exact Multiset.zero_le _
  · exact le_rfl

theorem sum_begunBy_le (calls : List SendCall) :
    (calls.map begunBy).sum ≤ (calls.map SendCall.message : Multiset Message) := by
  induction calls with
  | nil => exact le_rfl
  | cons c calls ih =>
      rw [List.map_cons, List.sum_cons, List.map_cons, ← Multiset.cons_coe, ← Multiset.singleton_add]
      exact add_le_add (begunBy_le c) ih

theorem SendStage.sent_iff {stage : SendStage} : stage.sent = true ↔ stage = .returned (.ok ()) := by
  cases stage with
  | returned result => cases result <;> simp [SendStage.sent]
  | _ => simp [SendStage.sent]

theorem sum_sentBy (calls : List SendCall) :
    (calls.map sentBy).sum.1 =
      ((calls.filter (·.stage = .returned (.ok ()))).map SendCall.message : Multiset Message) := by
  induction calls with
  | nil => rfl
  | cons c calls ih =>
      rw [List.map_cons, List.sum_cons, Prod.fst_add, ih]
      by_cases h : c.stage = .returned (.ok ())
      · have hs := SendStage.sent_iff.mpr h
        rw [List.filter_cons_of_pos (by simpa using h), List.map_cons, ← Multiset.cons_coe,
          ← Multiset.singleton_add, sentBy, hs, if_pos rfl]
      · have hs : c.stage.sent = false := by
          rw [Bool.eq_false_iff, ne_eq, SendStage.sent_iff]; exact h
        rw [List.filter_cons_of_neg (by simpa using h), sentBy, hs, if_neg (by simp), zero_add]

theorem Sending.framesIntact (h : Sending wire p) : FramesIntact (wire p.shared) p.tasks := by
  have hbegun : (wire p.shared).begun.Subperm (p.tasks.map SendCall.message) :=
    Multiset.coe_le.mp (h.begun.trans (sum_begunBy_le p.tasks))
  have hsent : ((p.tasks.filter (·.stage = .returned (.ok ()))).map SendCall.message).Perm
      (wire p.shared).delivered := by
    have h₁ : ((wire p.shared).delivered : Multiset Message) = (p.total sentBy).1 :=
      congrArg Prod.fst h.ledger
    exact Multiset.coe_eq_coe.mp ((sum_sentBy p.tasks).symm.trans h₁.symm)
  refine ⟨?_, ?_, h.intact.parse_sublist.subperm.trans hbegun⟩
  · obtain ⟨ms, hsub, hpre⟩ := h.intact.prefix
    exact ⟨ms, hsub.subperm.trans hbegun, fun m hm => h.intact.valid m (hsub.subset hm), hpre⟩
  · exact hsent.subperm.trans h.intact.delivered_prefix.sublist.subperm

/-- The frames stay intact in every run in which nothing is put behind a torn frame. -/
theorem Sends.framesIntact (hP : Sends P wire) {s : σ} (hw : wire s = {}) {es} {p : Pool σ SendCall}
    (hC : Along P.step (NothingBehindTorn wire) ⟨s, []⟩ es) (hr : run P.step ⟨s, []⟩ es = some p) :
    FramesIntact (wire p.shared) p.tasks := by
  have h₀ : Sending wire (⟨s, []⟩ : Pool σ SendCall) := by
    refine ⟨?_, by simp, ?_, ?_⟩
    · rw [show wire (⟨s, []⟩ : Pool σ SendCall).shared = {} from hw]; exact .init
    · rw [show wire (⟨s, []⟩ : Pool σ SendCall).shared = {} from hw]; exact Multiset.zero_le _
    · rw [show wire (⟨s, []⟩ : Pool σ SendCall).shared = {} from hw]; rfl
  exact (run_preserves (fun _ _ _ hI hC hs => hI.step hP hC hs) h₀ hC hr).framesIntact

end Pool

end NetworkSystem
