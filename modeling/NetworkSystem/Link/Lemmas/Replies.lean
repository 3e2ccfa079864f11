import NetworkSystem.Link.Exchange

/-!
# The replies of a session task

A session that is served by its task, and otherwise only closed and set inactive: the frames that begin on the
connection are replies, in the order of the messages that the session has returned, and at most once each.
-/

namespace NetworkSystem

open FrameWriter TaskPool

/-! ## One send -/

/-- A send whose turn it is: before its frame begins, only frames of the messages `done` have begun. -/
structure Turn (done : List Message) (w : Wire) (c : SendCall) : Prop where
  encoded : c.Encoded
  flight : w.inFlight.isSome = c.stage.holds
  begun : w.begun.Sublist (if c.stage.early then done else done ++ [c.message])

variable {done : List Message} {w w' : Wire} {c c' : SendCall} {ev : Option (FrameWriter.Event Message)}

theorem Turn.start {kind : SendKind} {m : Message} (hw : w.inFlight = none) (hb : w.begun.Sublist done) :
    Turn done w (SendCall.start (kind, m)) where
  encoded := fun data h => by cases h
  flight := by rw [hw]; rfl
  begun := hb

theorem Turn.step (h : Turn done w c) (hs : WireStep w c ev w' c') : Turn done w' c' where
  encoded := hs.encoded
  flight := by
    have hcount := hs.inFlight
    rw [h.flight, Nat.add_comm] at hcount
    have hsame := Nat.add_left_cancel hcount
    cases hf : w'.inFlight.isSome <;> cases hh : c'.stage.holds <;> simp_all
  begun := by
    obtain ⟨hm, ⟨he, hh, hb⟩ | ⟨hb, he⟩⟩ := hs.begun_eq
    · have hbegun := h.begun
      rw [he] at hbegun
      rw [hb, hm, SendStage.not_early_of_holds hh]
      exact hbegun.append (List.Sublist.refl _)
    · rw [hb, hm]
      refine h.begun.trans ?_
      cases hc' : c'.stage.early with
      | true => rw [he hc']
      | false =>
          split
          · exact List.sublist_append_left _ _
          · exact List.Sublist.refl _

/-- A send that does not hold the connection leaves no frame in flight, and began at most its own. -/
theorem Turn.finished (h : Turn done w c) (hc : c.stage.holds = false) :
    w.inFlight = none ∧ w.begun.Sublist (done ++ [c.message]) := by
  refine ⟨?_, h.begun.trans ?_⟩
  · have hflight := h.flight
    rw [hc] at hflight
    exact Option.isNone_iff_eq_none.mp (by rw [← Option.not_isSome, hflight]; rfl)
  · split
    · exact List.sublist_append_left _ _
    · exact List.Sublist.refl _

/-! ## The session task -/

def Served.wire (s : Served) : Wire := s.session.io.wire

/-- What the session task has begun to send, by the call that it awaits. -/
inductive Replying (reply : Message → List Message) (s : Served) : ServerCall → Prop
  | receiving (stage : ReceiveStage) (hw : s.wire.inFlight = none)
      (hb : s.wire.begun.Sublist (s.got.flatMap reply)) : Replying reply s (.serve (.receive stage) [])
  | sending {call : SendCall} {todo done : List Message}
      (hgot : s.got.flatMap reply = done ++ call.message :: todo) (h : Turn done s.wire call) :
      Replying reply s (.serve (.send call) todo)
  | served (hw : s.wire.inFlight = none) (hb : s.wire.begun.Sublist (s.got.flatMap reply)) :
      Replying reply s .served

variable {reply : Message → List Message} {s s' : Served} {t t' : ServerCall} {e : SessionEvent}

theorem Replying.next {todo done : List Message} (hgot : s.got.flatMap reply = done ++ todo)
    (hw : s.wire.inFlight = none) (hb : s.wire.begun.Sublist done) : Replying reply s (.next todo) := by
  cases todo with
  | nil =>
      rw [List.append_nil] at hgot
      exact .receiving .entered hw (by rwa [hgot])
  | cons m todo => exact .sending hgot (.start hw hb)

/-- The replies to the messages so far are sent, before those to what comes. -/
theorem Replying.more {got : List Message} (hb : s.wire.begun.Sublist (s.got.flatMap reply)) :
    s.wire.begun.Sublist ((s.got ++ got).flatMap reply) := by
  rw [List.flatMap_append]
  exact hb.trans (List.sublist_append_left _ _)

theorem Replying.step (h : Replying reply s t) (hs : t.act reply s e = some (s', t')) : Replying reply s' t' := by
  obtain ⟨c, c', hact, hgot, ⟨rfl, _⟩ | ⟨todo, rfl, rfl⟩⟩ := ServerCall.act_call hs
  · cases h
  obtain ⟨session', got'⟩ := s'
  dsimp only at hact hgot
  subst hgot
  have hcall := SessionCall.act_step hact
  cases h with
  | receiving stage hw hb =>
      cases hcall with
      | @receive _ stage' e _ hstep =>
          have hwire : session'.io.wire = s.wire := hstep.frame.wire
          rw [← hwire] at hw
          have hmore : ∀ {got : List Message}, session'.io.wire.begun.Sublist ((s.got ++ got).flatMap reply) := by
            intro got
            rw [hwire]
            exact Replying.more hb
          cases stage' with
          | returned result =>
              cases result with
              | ok m =>
                  have hgot : (s.got ++ [m]).flatMap reply = s.got.flatMap reply ++ reply m := by simp
                  exact Replying.next hgot hw (by rw [← hwire] at hb; exact hb)
              | error err => exact .served hw hmore
          | _ => exact .receiving _ hw hmore
  | @sending call _ done hdone hturn =>
      cases hcall with
      | @send _ call' e io hfree hsend =>
          obtain ⟨ev, hstep, _⟩ := Session.sendStep_wire hsend
          have hmessage := hstep.begun_eq.1
          have hturn' := hturn.step hstep
          obtain ⟨kind, m, stage⟩ := call'
          dsimp only at hmessage
          subst hmessage
          have hsame : (s.got ++ (SessionCall.send ⟨kind, call.message, stage⟩).got).flatMap reply =
              done ++ call.message :: todo := by
            rw [← hdone]
            exact congrArg _ (List.append_nil _)
          cases stage with
          | returned result =>
              obtain ⟨hw, hb⟩ := hturn'.finished rfl
              exact Replying.next (by rw [hsame]; simp) hw hb
          | _ => exact .sending hsame hturn'

/-! ## The session task among other tasks -/

/-- The task closes the session or sets it inactive. -/
def ServerCall.closes : ServerCall → Bool
  | .call (.close _) | .call (.setInactive _) => true
  | _ => false

/-- The session task comes first, and the other tasks do nothing but close the session or set it inactive. -/
structure Serving (reply : Message → List Message) (p : Pool Served ServerCall) : Prop where
  first : ∃ t, p.tasks[0]? = some t ∧ Replying reply p.shared t
  others : ∀ (j : Nat) t, p.tasks[j]? = some t → j ≠ 0 → t.closes = true

theorem Serving.accept (now readTimeout writeTimeout idleTimeout : Nat) :
    Serving reply (Served.accept now readTimeout writeTimeout idleTimeout) where
  first := ⟨_, rfl, .receiving _ rfl (List.Sublist.refl _)⟩
  others := by
    intro j t ht hj
    rw [Served.accept, List.getElem?_singleton, if_neg hj] at ht
    cases ht

theorem Replying.congr (h : Replying reply s t) (hw : s'.wire = s.wire) (hg : s'.got = s.got) :
    Replying reply s' t := by
  cases h with
  | receiving stage hf hb => exact .receiving stage (by rw [hw]; exact hf) (by rw [hw, hg]; exact hb)
  | sending hgot h => exact .sending (by rw [hg]; exact hgot) (by rw [hw]; exact h)
  | served hf hb => exact .served (by rw [hw]; exact hf) (by rw [hw, hg]; exact hb)

/-- A task that closes the session leaves the connection alone. -/
theorem ServerCall.closes_step (hc : t.closes = true) (h : t.act reply s e = some (s', t')) :
    t'.closes = true ∧ s'.wire = s.wire ∧ s'.got = s.got := by
  obtain ⟨c, c', hact, hgot, ⟨rfl, rfl⟩ | ⟨todo, rfl, rfl⟩⟩ := ServerCall.act_call h
  · obtain ⟨session', got'⟩ := s'
    dsimp only at hact hgot
    subst hgot
    cases SessionCall.act_step hact with
    | close hclose => exact ⟨rfl, hclose.wire, List.append_nil _⟩
    | setInactive => exact ⟨rfl, rfl, List.append_nil _⟩
    | _ => cases hc
  · cases hc

variable {p p' : Pool Served ServerCall} {ev : TaskPool.Event SessionRequest SessionEvent}

theorem Serving.step (h : Serving reply p) (he : servesOnly ev = true)
    (hs : (serverCalls reply).step p ev = some p') : Serving reply p' := by
  obtain ⟨t₀, h₀, hreplying⟩ := h.first
  cases ev with
  | spawn k =>
      cases hs
      have hcloses : ((serverCalls reply).start k).closes = true := by
        cases k <;> first | rfl | cases he
      refine ⟨⟨t₀, ?_, hreplying⟩, ?_⟩
      · rw [List.getElem?_append_left (List.getElem?_eq_some_iff.mp h₀).1]; exact h₀
      · exact forall_getElem?_snoc (Q := fun j t => j ≠ 0 → ServerCall.closes t = true) h.others fun _ => hcloses
  | act i e =>
      obtain ⟨t, s', t', ht, ha, rfl⟩ := Program.step_act.mp hs
      by_cases hi : i = 0
      · subst hi
        obtain rfl : t₀ = t := Option.some.inj (h₀.symm.trans ht)
        refine ⟨⟨t', ?_, hreplying.step ha⟩, ?_⟩
        · exact List.getElem?_set_self (List.getElem?_eq_some_iff.mp h₀).1
        · exact forall_getElem?_set (Q := fun j t => j ≠ 0 → ServerCall.closes t = true) h.others (absurd rfl)
      · obtain ⟨hcloses, hw, hg⟩ := ServerCall.closes_step (h.others i t ht hi) ha
        refine ⟨⟨t₀, ?_, hreplying.congr hw hg⟩, ?_⟩
        · rw [List.getElem?_set_ne hi]; exact h₀
        · exact forall_getElem?_set (Q := fun j t => j ≠ 0 → ServerCall.closes t = true) h.others fun _ => hcloses

/-- The frames of the replies are intact, and each has begun. -/
structure Whole (w : Wire) : Prop where
  intact : Intact messageCode w
  counted : w.Counted

theorem Whole.init : Whole {} := ⟨.init, Nat.le_refl 0⟩

theorem Whole.step {w w' : Wire} {c c' : SendCall} {ev : Option (FrameWriter.Event Message)} (h : Whole w)
    (hs : WireStep w c ev w' c') (henc : c.Encoded) (hput : ∀ k, ev = some (.put k) → w.torn = false) :
    Whole w' where
  intact := hs.intact henc hput h.intact
  counted := by
    rcases hs.writer henc with ⟨_, rfl⟩ | ⟨e, rfl, _, hstep⟩
    · exact h.counted
    · exact h.counted.step hstep

theorem Serving.whole (h : Serving reply p) (hC : ServerCleanWrite p ev) (hw : Whole p.shared.wire)
    (hs : (serverCalls reply).step p ev = some p') : Whole p'.shared.wire := by
  cases ev with
  | spawn k => cases hs; exact hw
  | act i e =>
      obtain ⟨t, s', t', ht, ha, rfl⟩ := Program.step_act.mp hs
      by_cases hi : i = 0
      · subst hi
        obtain ⟨t₀, h₀, hreplying⟩ := h.first
        obtain rfl : t₀ = t := Option.some.inj (h₀.symm.trans ht)
        obtain ⟨c, c', hact, _, ⟨rfl, _⟩ | ⟨todo, rfl, _⟩⟩ := ServerCall.act_call ha
        · cases hreplying
        · obtain ⟨session', got'⟩ := s'
          dsimp only at hact
          cases hreplying with
          | receiving stage =>
              cases SessionCall.act_step hact with
              | receive hstep =>
                  have hwire : session'.io.wire = p.shared.wire := hstep.frame.wire
                  rw [← hwire] at hw
                  exact hw
          | sending _ hturn =>
              cases SessionCall.act_step hact with
              | send hfree hsend =>
                  obtain ⟨ev, hstep, hput⟩ := Session.sendStep_wire hsend
                  exact hw.step hstep hturn.encoded fun k hk => hC (hput k hk)
      · obtain ⟨_, hwire, _⟩ := ServerCall.closes_step (h.others i t ht hi) ha
        rw [hwire]
        exact hw

/-- The frames that have begun are replies to what the session has returned, in order. -/
theorem Serving.begun (h : Serving reply p) : p.shared.wire.begun.Sublist (p.shared.got.flatMap reply) := by
  obtain ⟨t, _, hreplying⟩ := h.first
  cases hreplying with
  | receiving _ _ hb => exact hb
  | served _ hb => exact hb
  | sending hgot hturn =>
      rw [hgot, List.append_cons]
      refine (hturn.begun.trans ?_).trans (List.sublist_append_left _ _)
      split
      · exact List.sublist_append_left _ _
      · exact List.Sublist.refl _

end NetworkSystem
