import NetworkSystem.Wire.Lemmas.Send

/-!
# One send on a connection

What a step of a send does to the frame in flight, and what a whole send leaves on the connection when no other call
is under way there.
-/

namespace NetworkSystem

open FrameWriter TaskPool Steps

theorem Wire.isSome_inFlight (w : Wire) : w.inFlight.isSome.toNat = w.ledger.2.card := by
  cases h : w.inFlight <;> simp [Wire.ledger, h]

/-- A frame is in flight for the call that holds the lock. -/
theorem WireStep.inFlight {w w' : Wire} {c c' : SendCall} {ev : Option (FrameWriter.Event Message)}
    (h : WireStep w c ev w' c') :
    w'.inFlight.isSome.toNat + c.stage.holds.toNat = w.inFlight.isSome.toNat + c'.stage.holds.toNat := by
  simp only [Wire.isSome_inFlight]
  cases h with
  | front hc hh =>
      rw [SendStage.not_holds_of_early hc]
      simp [SendCall.advance, hh]
  | stay hc hh => simp [hc, SendCall.advance, hh]
  | begin hc hh hw =>
      have hheld : c.stage.holds = false := by rw [hc]; rfl
      simp [(Wire.begin_eq hw).1, hheld, SendCall.advance, hh]
  | put hc hh hw => simp [(Wire.put_eq hw).1, hc, SendCall.advance, hh]
  | finish hc hw =>
      obtain ⟨a, ha, hled, -⟩ := Wire.finish_eq hw
      have hdone : (c.advance (.returned (.ok ()))).stage.holds = false := rfl
      simp [ha, hled, hc, hdone]
  | abandon hc hh _ _ hw =>
      obtain ⟨a, ha, hled, -⟩ := Wire.abandon_eq hw
      simp [ha, hled, hc, SendCall.advance, hh]

variable {done : List Message} {w w' : Wire} {c c' : SendCall} {ev : Option (FrameWriter.Event Message)}

theorem WireStep.begun_eq (h : WireStep w c ev w' c') :
    c'.message = c.message ∧
      ((c.stage.early = true ∧ c'.stage.holds = true ∧ w'.begun = w.begun ++ [c.message]) ∨
        (w'.begun = w.begun ∧ (c'.stage.early = true → c.stage.early = true))) := by
  cases h with
  | front hc => exact ⟨rfl, Or.inr ⟨rfl, fun _ => hc⟩⟩
  | stay hc hh =>
      refine ⟨rfl, Or.inr ⟨rfl, fun he => ?_⟩⟩
      rw [SendCall.advance, SendStage.not_early_of_holds hh] at he
      cases he
  | begin hc hh h =>
      obtain ⟨_, rfl⟩ := Writer.begin_eq_some.mp h
      exact ⟨rfl, Or.inl ⟨by rw [hc]; rfl, hh, rfl⟩⟩
  | put hc hh h =>
      obtain ⟨f, _, _, rfl⟩ := Writer.put_eq_some.mp h
      refine ⟨rfl, Or.inr ⟨rfl, fun he => ?_⟩⟩
      rw [SendCall.advance, SendStage.not_early_of_holds hh] at he
      cases he
  | finish hc h =>
      obtain ⟨f, _, _, rfl⟩ := Writer.finish_eq_some.mp h
      exact ⟨rfl, Or.inr ⟨rfl, fun he => by cases he⟩⟩
  | abandon hc hh hl hs h =>
      obtain ⟨f, _, _, rfl⟩ := Writer.abandon_eq_some.mp h
      refine ⟨rfl, Or.inr ⟨rfl, fun he => ?_⟩⟩
      rw [SendCall.advance, hl] at he
      cases he

/-- The frames of `done` are out, and at most the frame of the call is in flight. -/
structure Sent (done : List Message) (w : Wire) (c : SendCall) : Prop where
  encoded : c.Encoded
  flight : w.inFlight.isSome = c.stage.holds
  item : ∀ f, w.inFlight = some f → f.item = c.message
  delivered : w.delivered = done

/-- A step of a send goes on with it, ends it with its frame out, or ends it with an error. -/
theorem Sent.step (h : Sent done w c) (hs : WireStep w c ev w' c') :
    (Sent done w' c' ∧ (c'.stage.early = true ∨ c'.stage.holds = true) ∧ w'.torn = w.torn) ∨
      (c'.stage = .returned (.ok ()) ∧ w'.inFlight = none ∧ w'.delivered = done ++ [c.message] ∧
        w'.torn = w.torn) ∨
      (c'.stage.early = false ∧ c'.stage.holds = false ∧ c'.stage.sent = false ∧ w'.inFlight = none ∧
        w'.delivered = done ∧ w'.written = w.written) := by
  have hflight : w'.inFlight.isSome = c'.stage.holds := by
    have hcount := hs.inFlight
    rw [h.flight, Nat.add_comm] at hcount
    have hsame := Nat.add_left_cancel hcount
    cases hf : w'.inFlight.isSome <;> cases hh : c'.stage.holds <;> simp_all
  cases hs with
  | @front stage hc hh hsent he =>
      cases hl : stage.early with
      | true => exact Or.inl ⟨⟨he, hflight, h.item, h.delivered⟩, Or.inl hl, rfl⟩
      | false =>
          rw [SendCall.advance, hh] at hflight
          have hfree : w.inFlight = none := Option.isSome_eq_false_iff.mp hflight |> Option.isNone_iff_eq_none.mp
          exact Or.inr (Or.inr ⟨hl, hh, hsent, hfree, h.delivered, rfl⟩)
  | stay hc hh =>
      refine Or.inl ⟨⟨?_, hflight, h.item, h.delivered⟩, Or.inr hh, rfl⟩
      exact SendStage.encoded_of_late (SendStage.not_early_of_holds hh)
  | begin hc hh hw =>
      obtain ⟨_, rfl⟩ := Writer.begin_eq_some.mp hw
      refine Or.inl ⟨⟨?_, hflight, ?_, h.delivered⟩, Or.inr hh, rfl⟩
      · exact SendStage.encoded_of_late (SendStage.not_early_of_holds hh)
      · intro f hf
        cases hf
        rfl
  | put hc hh hw =>
      obtain ⟨f, hf, _, rfl⟩ := Writer.put_eq_some.mp hw
      refine Or.inl ⟨⟨?_, hflight, ?_, h.delivered⟩, Or.inr hh, rfl⟩
      · exact SendStage.encoded_of_late (SendStage.not_early_of_holds hh)
      · intro g hg
        cases hg
        exact h.item f hf
  | finish hc hw =>
      obtain ⟨f, hf, _, rfl⟩ := Writer.finish_eq_some.mp hw
      exact Or.inr (Or.inl ⟨rfl, rfl, by rw [h.delivered, h.item f hf], rfl⟩)
  | abandon hc hh hl hsent hw =>
      obtain ⟨f, _, _, rfl⟩ := Writer.abandon_eq_some.mp hw
      exact Or.inr (Or.inr ⟨hl, hh, hsent, rfl, h.delivered, rfl⟩)

theorem Sent.start {kind : SendKind} {m : Message} (hfree : w.inFlight = none) (hd : w.delivered = done) :
    Sent done w (SendCall.start (kind, m)) where
  encoded := fun data h => by cases h
  flight := by rw [hfree]; rfl
  item := by simp [hfree]
  delivered := hd

/-! ## A whole send -/

/-- A send of `m` that is the only call on a connection: it is under way, or over and its frame is out exactly if it
returned `Ok`. -/
inductive SendsAlone (m : Message) (torn : Bool) (done : List Message) (w : Wire) (c : SendCall) : Prop
  | going (hmessage : c.message = m) (hlive : c.stage.early = true ∨ c.stage.holds = true) (htorn : w.torn = torn)
      (h : Sent done w c)
  | ended (he : c.stage.early = false) (hh : c.stage.holds = false) (hfree : w.inFlight = none)
      (hd : w.delivered = done ++ if c.stage.sent then [m] else [])

variable {m : Message} {torn : Bool}

theorem WireStep.live (h : WireStep w c ev w' c') : c.stage.early = true ∨ c.stage.holds = true := by
  cases h with
  | front hc => exact Or.inl hc
  | begin hc => exact Or.inl (by rw [hc]; rfl)
  | stay hc => exact Or.inr hc
  | put hc => exact Or.inr hc
  | finish hc => exact Or.inr hc
  | abandon hc => exact Or.inr hc

theorem SendsAlone.step (h : SendsAlone m torn done w c) (hw : Intact messageCode w) (hs : WireStep w c ev w' c')
    (hput : ∀ k, ev = some (.put k) → torn = false) : Intact messageCode w' ∧ SendsAlone m torn done w' c' := by
  cases h with
  | ended he hh =>
      rcases hs.live with hlive | hlive
      · rw [he] at hlive; cases hlive
      · rw [hh] at hlive; cases hlive
  | going hmessage _ htorn h =>
      refine ⟨hs.intact h.encoded (fun k hk => by rw [htorn]; exact hput k hk) hw, ?_⟩
      rcases h.step hs with ⟨hgoes, hlive, hsame⟩ | ⟨hok, hfree, hd, _⟩ | ⟨he, hh, hfail, hfree, hd, _⟩
      · exact .going (hs.begun_eq.1.trans hmessage) hlive (hsame.trans htorn) hgoes
      · refine .ended (by rw [hok]; rfl) (by rw [hok]; rfl) hfree ?_
        rw [hd, hok, hmessage]
        rfl
      · exact .ended he hh hfree (by rw [hd, hfail]; simp)

/-- A send that is over has left the connection intact. No frame is in flight there, and its frame is out exactly if it
returned `Ok`. -/
theorem TcpClient.send_alone {kind : SendKind} {io io' : ClientWire} {events : List SendEvent}
    (hw : Intact messageCode io.wire) (hfree : io.wire.inFlight = none)
    (hclean : io.wire.torn = true → ∀ e ∈ events, e.writes = false)
    (hr : run (fun s e => TcpClient.sendStep s.1 s.2 e) (io, SendCall.start (kind, m)) events = some (io', c'))
    (he : c'.stage.early = false) (hh : c'.stage.holds = false) :
    Intact messageCode io'.wire ∧ io'.wire.inFlight = none ∧
      io'.wire.delivered = io.wire.delivered ++ if c'.stage.sent then [m] else [] := by
  have halone : Intact messageCode io'.wire ∧ SendsAlone m io.wire.torn io.wire.delivered io'.wire c' := by
    refine run_preserves (C := fun _ e => io.wire.torn = true → e.writes = false)
      (I := fun s : ClientWire × SendCall =>
        Intact messageCode s.1.wire ∧ SendsAlone m io.wire.torn io.wire.delivered s.1.wire s.2)
      ?_ ⟨hw, .going rfl (Or.inl rfl) rfl (.start hfree rfl)⟩ (along_of_forall fun e hmem ht => hclean ht e hmem) hr
    rintro ⟨io, c⟩ e ⟨io', c'⟩ ⟨hw, h⟩ hclean hs
    obtain ⟨ev, hstep, hwrites⟩ := TcpClient.sendStep_wire hs
    refine h.step hw hstep fun k hk => ?_
    exact Bool.eq_false_of_not_eq_true fun ht => Bool.false_ne_true ((hclean ht).symm.trans (hwrites k hk))
  obtain ⟨hw', halone⟩ := halone
  cases halone with
  | ended _ _ hfree hd => exact ⟨hw', hfree, hd⟩
  | going _ hlive =>
      rcases hlive with hlive | hlive
      · rw [he] at hlive; cases hlive
      · rw [hh] at hlive; cases hlive

end NetworkSystem
