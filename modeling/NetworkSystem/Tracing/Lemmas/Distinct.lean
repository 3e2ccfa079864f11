import NetworkSystem.Tracing.Lemmas.SpanIds
import NetworkSystem.Lib.Names

/-!
# Distinct span identifiers

Where the span ids are distinct, the parent that `child_span` writes names the span it was called on. A step keeps
them distinct exactly if the call that takes a number, if any, takes a new one.
-/

namespace NetworkSystem

namespace Tracing

def spanIdAt (s : Tracing) (i : Nat) : Option String := (s.span i).map (·.spanId)

/-- Two calls that have returned the same span id are one call. -/
def SpanIdsDistinct (s : Tracing) : Prop := Names.Distinct s.spanIdAt

/-- What `child_span` has written as the parent is the id of the span it was called on and of no other, the child
included. -/
def ParentsNamed (s : Tracing) : Prop :=
  ∀ i parent self operation child,
    s.makerAt i = some (.childSpan parent self operation) → s.span i = some child →
      ∃ named, child.parentSpanId = some named ∧ child.spanId ≠ named ∧
        ∀ j, s.spanIdAt j = some named ↔ j = parent

/-- `child_span` is called on a span that has been returned before. -/
def ParentsReturned (s : Tracing) : Prop :=
  ∀ i parent self operation, s.makerAt i = some (.childSpan parent self operation) →
    parent < i ∧ s.span parent = some self

variable {s : Tracing} {i : Nat}

theorem lt_of_span {c : TraceContext} (h : s.span i = some c) : i < s.calls.length := by
  obtain ⟨call, hcall, _⟩ := Option.bind_eq_some_iff.mp h
  exact (List.getElem?_eq_some_iff.mp hcall).1

/-- The context of a span is what its constructor makes of its id. -/
theorem context_of_makerAt {maker : SpanMaker} {c : TraceContext} (hm : s.makerAt i = some maker)
    (hc : s.span i = some c) : ∃ spanId, c = maker.context spanId := by
  obtain ⟨call, hcall, rfl⟩ := Option.map_eq_some_iff.mp hm
  obtain ⟨call', hcall', hcontext⟩ := Option.bind_eq_some_iff.mp hc
  cases hcall.symm.trans hcall'
  unfold SpanCall.context at hcontext
  split at hcontext
  · rename_i spanId _
    cases hcontext
    exact ⟨spanId, rfl⟩
  · cases hcontext

theorem ParentsReturned.named (hp : s.ParentsReturned) (hd : s.SpanIdsDistinct) : s.ParentsNamed := by
  intro i parent self operation child hm hchild
  obtain ⟨hlt, hself⟩ := hp i parent self operation hm
  have hparent : s.spanIdAt parent = some self.spanId := congrArg (Option.map _) hself
  have hown : s.spanIdAt i = some child.spanId := congrArg (Option.map _) hchild
  obtain ⟨spanId, rfl⟩ := context_of_makerAt hm hchild
  refine ⟨self.spanId, rfl, ?_, fun j => hd.eq_some_iff hparent⟩
  intro heq
  have hsame : i = parent := hd i parent _ hown (heq ▸ hparent)
  omega

end Tracing

namespace TracedProcess

variable {p p' : TracedProcess} {e : TraceEvent}

/-- The numbers that have been taken are those of the spans, and every parent is there. -/
structure Recorded (p : TracedProcess) : Prop where
  numbers : ∀ n, Names.Used p.tracing.spanIdAt (spanIdText n) ↔ p.Taken n
  parents : p.tracing.ParentsReturned

theorem Recorded.fresh : Recorded {} where
  numbers := by
    intro n
    constructor
    · rintro ⟨i, hi⟩
      cases hi
    · rintro (⟨reading, hmem, _⟩ | hmem) <;> cases hmem
  parents := by
    intro i parent self operation hm
    cases hm

theorem Effect.spanIds (h : Effect p e p') :
    (p.stamp e = none ∧ p'.tracing.spanIdAt = p.tracing.spanIdAt) ∨
      ∃ n i, p.stamp e = some n ∧ p.tracing.spanIdAt i = none ∧
        p'.tracing.spanIdAt = Function.update p.tracing.spanIdAt i (some (spanIdText n)) := by
  rcases h.spans with ⟨hstamp, hspan⟩ | ⟨n, i, maker, hstamp, hi, hspan⟩
  · exact .inl ⟨hstamp, funext fun j => congrArg (Option.map _) (congrFun hspan j)⟩
  · refine .inr ⟨n, i, hstamp, congrArg (Option.map _) hi, ?_⟩
    have hid : (maker.context (spanIdText n)).spanId = spanIdText n := by cases maker <;> rfl
    calc p'.tracing.spanIdAt = Option.map (·.spanId) ∘ p'.tracing.span := rfl
      _ = _ := by rw [hspan, Function.comp_update, Option.map_some, hid]; rfl

/-- A span that has been returned stays as it is. -/
theorem Effect.span_kept (h : Effect p e p') {i : Nat} {c : TraceContext} (hc : p.tracing.span i = some c) :
    p'.tracing.span i = some c := by
  rcases h.spans with ⟨_, hspan⟩ | ⟨n, k, maker, _, hk, hspan⟩
  · rw [hspan, hc]
  · have hne : i ≠ k := by
      rintro rfl
      rw [hk] at hc
      cases hc
    rw [hspan, Function.update_of_ne hne, hc]

theorem Recorded.step (hp : p.Recorded) (h : Effect p e p') : p'.Recorded where
  numbers := by
    intro n
    rw [h.taken n, ← hp.numbers n]
    rcases h.spanIds with ⟨hstamp, hids⟩ | ⟨m, i, hstamp, hi, hids⟩
    · simp [hstamp, hids]
    · rw [hids, Names.used_update hi, hstamp, Option.some.injEq]
      exact or_congr_left ⟨fun h => spanIdText_inj h, fun h => congrArg spanIdText h⟩
  parents := by
    intro i parent self operation hm
    rcases h.makers hm with hm | ⟨rfl, hself⟩
    · obtain ⟨hlt, hself⟩ := hp.parents i parent self operation hm
      exact ⟨hlt, h.span_kept hself⟩
    · exact ⟨Tracing.lt_of_span hself, h.span_kept hself⟩

/-- The condition on the readings and the counter says that the number is new. -/
theorem takesNew_iff (h : p.step e = some p') : p.TakesNew e ↔ ∀ n, p.stamp e = some n → ¬ p.Taken n := by
  have hsome : (p.step e).isSome = true := by rw [h]; rfl
  unfold TakesNew
  rw [forall_prop_of_true hsome]
  cases e with
  | now i time =>
      simp only [stamp, sinceEpoch_eq_some]
      constructor
      · rintro hnew n ⟨hpos, rfl⟩
        exact (apart_iff hpos).mp (hnew hpos)
      · intro hnew hpos
        exact (apart_iff hpos).mpr (hnew _ ⟨hpos, rfl⟩)
  | fetchAdd i =>
      have hcounter : UInt64.ofNat ((p.tracing.traceCounter.toNat : Int).toNat) = p.tracing.traceCounter := by
        rw [Int.toNat_natCast, UInt64.ofNat_toNat]
      simp only [stamp, Option.some.injEq, forall_eq']
      rw [apart_iff (Int.natCast_nonneg _), hcounter]
  | _ => simp [stamp]

theorem Effect.distinct_iff (hp : p.Recorded) (hd : p.tracing.SpanIdsDistinct) (h : Effect p e p') :
    p'.tracing.SpanIdsDistinct ↔ ∀ n, p.stamp e = some n → ¬ p.Taken n := by
  unfold Tracing.SpanIdsDistinct
  rcases h.spanIds with ⟨hstamp, hids⟩ | ⟨m, i, hstamp, hi, hids⟩
  · rw [hids, hstamp]
    exact iff_of_true hd (by intro n hn; cases hn)
  · rw [hids, Names.distinct_update hd hi, hp.numbers m]
    simp only [hstamp, Option.some.injEq, forall_eq']

end TracedProcess

/-! ## Readings that fit -/

/-- A reading at or after the epoch that 64 bits hold. -/
def TraceEvent.Fits : TraceEvent → Prop
  | .now _ time => 0 ≤ time ∧ time < UInt64.size
  | _ => True

namespace TracedProcess

variable {p p' : TracedProcess} {e : TraceEvent}

/-- A call that reads the clock does not read what a call has read before. -/
def Ticked (p : TracedProcess) (e : TraceEvent) : Prop :=
  (p.step e).isSome = true → ∀ i time, e = .now i time → time ∉ p.readings

/-- All readings have fitted, and no call has come to the counter. -/
structure OnClock (p : TracedProcess) : Prop where
  readings : ∀ reading ∈ p.readings, 0 ≤ reading ∧ reading < UInt64.size
  uncounted : p.counted = []
  stages : ∀ call ∈ p.tracing.calls, call.stage ≠ .counting

theorem OnClock.fresh : OnClock {} where
  readings := by
    intro reading hmem
    cases hmem
  uncounted := rfl
  stages := by
    intro call hmem
    cases hmem

theorem OnClock.step (h : p.OnClock) (he : e.Fits) (heffect : Effect p e p') : p'.OnClock := by
  cases heffect with
  | made _ _ =>
      refine { h with stages := fun call hcall => ?_ }
      rcases List.mem_append.mp hcall with hcall | hcall
      · exact h.stages call hcall
      · rw [List.mem_singleton.mp hcall]
        intro hstage
        cases hstage
  | drawn => exact { h with }
  | early _ htime =>
      rw [sinceEpoch_of_nonneg he.1] at htime
      cases htime
  | clocked _ _ =>
      refine ⟨List.forall_mem_cons.mpr ⟨he, h.readings⟩, h.uncounted, fun call hcall => ?_⟩
      rcases List.mem_or_eq_of_mem_set hcall with hcall | rfl
      · exact h.stages call hcall
      · intro hstage
        cases hstage
  | counted hcall => exact absurd rfl (h.stages _ (List.mem_of_getElem? hcall))

theorem OnClock.apart_iff (h : p.OnClock) {time : Int} (hpos : 0 ≤ time) (hfits : time < UInt64.size) :
    p.Apart time ↔ time ∉ p.readings := by
  constructor
  · intro hapart hmem
    refine hapart.1 time hmem hpos ?_
    rw [sub_self]
    exact dvd_zero _
  · intro hnew
    refine ⟨fun reading hmem hr hdvd => hnew ?_, by rw [h.uncounted]; intro _ hmem; cases hmem⟩
    have hlt := (h.readings reading hmem).2
    have hzero : time - reading = 0 := by
      refine Int.eq_zero_of_abs_lt_dvd hdvd ?_
      rw [abs_lt]
      omega
    rwa [sub_eq_zero.mp hzero]

/-- Within 2⁶⁴ nanoseconds of the epoch a number is new exactly if the clock has ticked. -/
theorem OnClock.takesNew_iff (h : p.OnClock) (he : e.Fits) : p.TakesNew e ↔ p.Ticked e := by
  refine forall_congr' fun hsome => ?_
  cases e with
  | now i time =>
      constructor
      · intro hapart j reading heq
        cases heq
        exact (h.apart_iff he.1 he.2).mp (hapart he.1)
      · intro hticked _
        exact (h.apart_iff he.1 he.2).mpr (hticked i time rfl)
  | fetchAdd i =>
      obtain ⟨p', hs⟩ := Option.isSome_iff_exists.mp hsome
      cases step_effect hs with
      | made hstamp _ => cases hstamp
      | counted hcall => exact absurd rfl (h.stages _ (List.mem_of_getElem? hcall))
  | _ => exact iff_of_true trivial (by intro i time heq; cases heq)

end TracedProcess

end NetworkSystem
