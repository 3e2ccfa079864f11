import NetworkSystem.Tracing.TraceContext
import NetworkSystem.Lib.TaskPool
import Mathlib.Data.Int.ModEq

/-!
# Span identifiers

A span id is the text of a 64-bit number, and no two numbers have the same text. The number is a reading of the
clock or one that the counter has given, so that the ids are distinct as long as a call takes a number that no
call has taken before.
-/

namespace NetworkSystem

namespace Tracing

def makerAt (s : Tracing) (i : Nat) : Option SpanMaker := (s.calls[i]?).map (·.maker)

end Tracing

namespace TracedProcess

/-- No call has taken the 64 bits of the number for its span: no reading at or after the epoch has them, and the
counter has not given them. -/
def Apart (p : TracedProcess) (number : Int) : Prop :=
  (∀ reading ∈ p.readings, 0 ≤ reading → ¬ (UInt64.size : Int) ∣ number - reading) ∧
    ∀ count ∈ p.counted, ¬ (UInt64.size : Int) ∣ number - count.toNat

/-- Over the lists: the numbers of 64 bits are a finite type, which is not to be searched. -/
instance (p : TracedProcess) (number : Int) : Decidable (p.Apart number) :=
  @instDecidableAnd _ _ (List.decidableBAll _ p.readings) (List.decidableBAll _ p.counted)

/-- A call that takes a number for its span takes a new one. -/
def TakesNew (p : TracedProcess) (e : TraceEvent) : Prop :=
  (p.step e).isSome = true →
    match e with
    | .now _ time => 0 ≤ time → p.Apart time
    | .fetchAdd _ => p.Apart p.tracing.traceCounter.toNat
    | _ => True

instance (p : TracedProcess) (e : TraceEvent) : Decidable (p.TakesNew e) :=
  match e with
  | .now _ time => inferInstanceAs (Decidable (_ → 0 ≤ time → p.Apart time))
  | .fetchAdd _ => inferInstanceAs (Decidable (_ → p.Apart p.tracing.traceCounter.toNat))
  | .new _ _ | .childSpan _ _ | .fromParent _ _ _ _ | .generateTraceId => isTrue fun _ => trivial

/-- The number that a call takes for its span. -/
def stamp (p : TracedProcess) : TraceEvent → Option UInt64
  | .now _ time => sinceEpoch time
  | .fetchAdd _ => some p.tracing.traceCounter
  | _ => none

def Taken (p : TracedProcess) (n : UInt64) : Prop :=
  (∃ reading ∈ p.readings, sinceEpoch reading = some n) ∨ n ∈ p.counted

end TracedProcess

/-! ## Numbers and their texts -/

theorem spanIdText_inj {n m : UInt64} (h : spanIdText n = spanIdText m) : n = m := by
  have htext : hex16 n = hex16 m := by
    have hlist := congrArg String.toList h
    simp only [spanIdText, String.toList_append] at hlist
    exact String.toList_inj.mp (List.append_cancel_left hlist)
  have hfits : ∀ k : UInt64, k.toNat < 16 ^ 16 := UInt64.toNat_lt
  exact UInt64.toNat.inj (Hex.padded_inj (hfits n) (hfits m) (String.ofList_inj.mp htext))

theorem sinceEpoch_of_nonneg {time : Int} (h : 0 ≤ time) :
    sinceEpoch time = some (UInt64.ofNat time.toNat) :=
  if_pos h

theorem sinceEpoch_eq_some {time : Int} {n : UInt64} :
    sinceEpoch time = some n ↔ 0 ≤ time ∧ UInt64.ofNat time.toNat = n := by
  rw [sinceEpoch, Option.ite_none_right_eq_some, Option.some.injEq]

theorem ofNat_eq_iff_dvd {a b : Int} (ha : 0 ≤ a) (hb : 0 ≤ b) :
    UInt64.ofNat b.toNat = UInt64.ofNat a.toNat ↔ (UInt64.size : Int) ∣ a - b := by
  have hmod : b.toNat ≡ a.toNat [MOD UInt64.size] ↔ (UInt64.size : Int) ∣ a - b := by
    rw [Nat.modEq_iff_dvd, Int.toNat_of_nonneg ha, Int.toNat_of_nonneg hb]
  rw [← hmod, ← UInt64.toNat_inj, UInt64.toNat_ofNat', UInt64.toNat_ofNat']
  rfl

theorem TracedProcess.apart_iff {p : TracedProcess} {number : Int} (h : 0 ≤ number) :
    p.Apart number ↔ ¬ p.Taken (UInt64.ofNat number.toNat) := by
  unfold Apart Taken
  rw [not_or]
  refine and_congr ?_ ?_
  · simp only [sinceEpoch_eq_some, not_exists, not_and]
    exact forall_congr' fun reading => forall_congr' fun _ => forall_congr' fun hr =>
      not_congr (ofNat_eq_iff_dvd h hr).symm
  · have hcount : ∀ count : UInt64,
        (UInt64.size : Int) ∣ number - count.toNat ↔ count = UInt64.ofNat number.toNat := by
      intro count
      rw [← ofNat_eq_iff_dvd h (Int.natCast_nonneg _), Int.toNat_natCast, UInt64.ofNat_toNat]
    simp only [hcount]
    exact ⟨fun hne hmem => hne _ hmem rfl, fun hne count hmem heq => hne (heq ▸ hmem)⟩

/-! ## One step -/

namespace Tracing

variable {s : Tracing} {call call' : SpanCall} {i : Nat}

/-- A call that has not returned shows nothing. -/
theorem span_snoc {counter : UInt64} {maker : SpanMaker} (j : Nat) :
    ({ traceCounter := counter, calls := s.calls ++ [{ maker }] } : Tracing).span j = s.span j := by
  unfold span
  rcases Nat.lt_trichotomy j s.calls.length with hlt | rfl | hgt
  · rw [List.getElem?_append_left hlt]
  · rw [List.getElem?_concat_length, List.getElem?_eq_none (le_refl _)]
    rfl
  · have hlen : (s.calls ++ [({ maker } : SpanCall)]).length ≤ j := by simp; omega
    rw [List.getElem?_eq_none hlen, List.getElem?_eq_none (by omega)]

theorem span_of_getElem? (h : s.calls[i]? = some call) : s.span i = call.context := by
  unfold span
  rw [h]
  rfl

theorem span_set {counter : UInt64} (h : s.calls[i]? = some call) :
    ({ traceCounter := counter, calls := s.calls.set i call' } : Tracing).span =
      Function.update s.span i call'.context := by
  funext j
  by_cases hij : j = i
  · subst hij
    rw [Function.update_self]
    exact span_of_getElem? (List.getElem?_set_self (List.getElem?_eq_some_iff.mp h).1)
  · rw [Function.update_of_ne hij, span, List.getElem?_set_ne (Ne.symm hij)]
    rfl

/-- From one stage before the return to another. -/
theorem span_set_waiting {counter : UInt64} (h : s.calls[i]? = some call) (hcall : call.context = none)
    (hcall' : call'.context = none) :
    ({ traceCounter := counter, calls := s.calls.set i call' } : Tracing).span = s.span := by
  rw [span_set h, hcall', ← hcall, ← span_of_getElem? h, Function.update_eq_self]

theorem makerAt_set {counter : UInt64} {maker : SpanMaker} {stage stage' : SpanStage}
    (h : s.calls[i]? = some { maker, stage }) :
    ({ traceCounter := counter, calls := s.calls.set i { maker, stage := stage' } } : Tracing).makerAt =
      s.makerAt := by
  funext j
  unfold makerAt
  by_cases hij : i = j
  · subst hij
    rw [List.getElem?_set_self (List.getElem?_eq_some_iff.mp h).1, h]
    rfl
  · rw [List.getElem?_set_ne hij]

end Tracing

namespace TracedProcess

variable {p p' : TracedProcess} {e : TraceEvent}

/-- What a step does to the makers and the spans. -/
inductive Effect (p : TracedProcess) : TraceEvent → TracedProcess → Prop
  | made {e : TraceEvent} {counter : UInt64} {maker : SpanMaker} (he : p.stamp e = none)
      (hself : ∀ parent self operation, maker = .childSpan parent self operation →
        p.tracing.span parent = some self) :
      Effect p e
        { p with tracing := { traceCounter := counter, calls := p.tracing.calls ++ [{ maker }] } }
  | drawn : Effect p .generateTraceId
      { p with tracing := { p.tracing with traceCounter := p.tracing.traceCounter + 1 } }
  | early {i : Nat} {time : Int} {maker : SpanMaker}
      (hcall : p.tracing.calls[i]? = some { maker }) (htime : sinceEpoch time = none) :
      Effect p (.now i time)
        { p with
          tracing := { p.tracing with calls := p.tracing.calls.set i { maker, stage := .counting } }
          readings := time :: p.readings }
  | clocked {i : Nat} {time : Int} {maker : SpanMaker} {now : UInt64}
      (hcall : p.tracing.calls[i]? = some { maker }) (htime : sinceEpoch time = some now) :
      Effect p (.now i time)
        { p with
          tracing :=
            { p.tracing with calls := p.tracing.calls.set i { maker, stage := .stamped (spanIdText now) } }
          readings := time :: p.readings }
  | counted {i : Nat} {maker : SpanMaker}
      (hcall : p.tracing.calls[i]? = some { maker, stage := .counting }) :
      Effect p (.fetchAdd i)
        { p with
          tracing :=
            { traceCounter := p.tracing.traceCounter + 1
              calls := p.tracing.calls.set i
                { maker, stage := .stamped (spanIdText p.tracing.traceCounter) } }
          counted := p.tracing.traceCounter :: p.counted }

theorem step_effect (h : p.step e = some p') : Effect p e p' := by
  unfold step at h
  cases e with
  | new serviceName operation =>
      cases h
      exact .made rfl (by intro _ _ _ hm; cases hm)
  | childSpan parent operation =>
      obtain ⟨s', hs, rfl⟩ := Option.map_eq_some_iff.mp h
      obtain ⟨self, hself, rfl⟩ := Option.map_eq_some_iff.mp hs
      refine .made rfl ?_
      intro _ _ _ hm
      cases hm
      exact hself
  | fromParent traceId parentSpanId serviceName operation =>
      cases h
      exact .made rfl (by intro _ _ _ hm; cases hm)
  | generateTraceId =>
      cases h
      exact .drawn
  | now i time =>
      simp only at h
      split at h
      · obtain ⟨s', hs, rfl⟩ := Option.map_eq_some_iff.mp h
        simp only [Tracing.step] at hs
        split at hs
        · rename_i maker hcall
          cases htime : sinceEpoch time with
          | none =>
              rw [htime] at hs
              cases hs
              exact .early hcall htime
          | some now =>
              rw [htime] at hs
              cases hs
              exact .clocked hcall htime
        · cases hs
      · cases h
  | fetchAdd i =>
      obtain ⟨s', hs, rfl⟩ := Option.map_eq_some_iff.mp h
      simp only [Tracing.step] at hs
      split at hs
      · rename_i maker hcall
        cases hs
        exact .counted hcall
      · cases hs

/-- An event at which no call takes a number leaves the spans as they are. At any other event one more call has
returned, and its id is the text of the number. -/
theorem Effect.spans (h : Effect p e p') :
    (p.stamp e = none ∧ p'.tracing.span = p.tracing.span) ∨
      ∃ n i maker, p.stamp e = some n ∧ p.tracing.span i = none ∧
        p'.tracing.span = Function.update p.tracing.span i (some (SpanMaker.context (spanIdText n) maker)) := by
  cases h with
  | made he _ => exact .inl ⟨he, funext Tracing.span_snoc⟩
  | drawn => exact .inl ⟨rfl, rfl⟩
  | early hcall htime => exact .inl ⟨htime, Tracing.span_set_waiting hcall rfl rfl⟩
  | clocked hcall htime =>
      exact .inr ⟨_, _, _, htime, Tracing.span_of_getElem? hcall, Tracing.span_set hcall⟩
  | counted hcall => exact .inr ⟨_, _, _, rfl, Tracing.span_of_getElem? hcall, Tracing.span_set hcall⟩

theorem Effect.taken (h : Effect p e p') (n : UInt64) : p'.Taken n ↔ p.stamp e = some n ∨ p.Taken n := by
  cases h with
  | made he _ => simp [Taken, he]
  | drawn => simp [Taken, stamp]
  | early _ htime => simp [Taken, stamp, htime]
  | clocked _ htime => simp [Taken, stamp, htime, or_assoc]
  | counted _ => simp [Taken, stamp, or_left_comm, eq_comm]

/-- A span of `child_span` has a parent that was made before it. -/
theorem Effect.makers (h : Effect p e p') {i parent : Nat} {self : TraceContext} {operation : String}
    (hm : p'.tracing.makerAt i = some (.childSpan parent self operation)) :
    p.tracing.makerAt i = some (.childSpan parent self operation) ∨
      (i = p.tracing.calls.length ∧ p.tracing.span parent = some self) := by
  cases h with
  | made _ hself =>
      obtain ⟨call, hcall, hmaker⟩ := Option.map_eq_some_iff.mp hm
      rcases TaskPool.getElem?_snoc_cases hcall with hcall | ⟨rfl, rfl⟩
      · exact .inl (Option.map_eq_some_iff.mpr ⟨call, hcall, hmaker⟩)
      · exact .inr ⟨rfl, hself _ _ _ hmaker⟩
  | drawn => exact .inl hm
  | early hcall _ => exact .inl ((congrFun (Tracing.makerAt_set hcall) i).symm.trans hm)
  | clocked hcall _ => exact .inl ((congrFun (Tracing.makerAt_set hcall) i).symm.trans hm)
  | counted hcall => exact .inl ((congrFun (Tracing.makerAt_set hcall) i).symm.trans hm)

end TracedProcess

end NetworkSystem
