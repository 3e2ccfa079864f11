import NetworkSystem.Tracing.Lemmas.Distinct

/-!
# The traces that spans belong to

The spans are a forest: `child_span` puts a span under the one that it is called on, and `new` and `from_parent` make
a root. A span has the trace id and the service of its root, and no two roots of `new` have one trace id before the
counter has gone round. What the clock shows does not matter.
-/

namespace NetworkSystem

open Steps

def SpanMaker.isChild : SpanMaker → Bool
  | .childSpan .. => true
  | _ => false

def SpanMaker.isNew : SpanMaker → Bool
  | .new .. => true
  | _ => false

def SpanMaker.traceId : SpanMaker → String
  | .new traceId _ _ | .fromParent traceId _ _ _ => traceId
  | .childSpan _ self _ => self.traceId

/-- The event takes a number off the counter. -/
def TraceEvent.draws : TraceEvent → Bool
  | .new .. | .generateTraceId | .fetchAdd _ => true
  | _ => false

namespace Tracing

/-- The span `i` is under the root `r`, or is that root. -/
inductive RootOf (s : Tracing) : Nat → Nat → Prop
  | root {i : Nat} {maker : SpanMaker} (hm : s.makerAt i = some maker) (hroot : maker.isChild = false) :
      RootOf s i i
  | child {i parent r : Nat} {self : TraceContext} {operation : String}
      (hm : s.makerAt i = some (.childSpan parent self operation)) (h : RootOf s parent r) : RootOf s i r

/-- The call `i` is one of `TraceContext::new`. -/
def IsNew (s : Tracing) (i : Nat) : Prop := ∃ maker, s.makerAt i = some maker ∧ maker.isNew = true

variable {s s' : Tracing} {e : TraceEvent} {i j r q : Nat} {c d : TraceContext}

theorem makerAt_of_span (h : s.span i = some c) : ∃ maker, s.makerAt i = some maker := by
  obtain ⟨call, hcall, _⟩ := Option.bind_eq_some_iff.mp h
  exact ⟨call.maker, by rw [makerAt, hcall, Option.map_some]⟩

theorem RootOf.unique (h : s.RootOf i r) (h' : s.RootOf i q) : r = q := by
  induction h with
  | root hm hroot =>
      cases h' with
      | root => rfl
      | child hm' =>
          cases hm.symm.trans hm'
          cases hroot
  | child hm _ ih =>
      cases h' with
      | root hm' hroot =>
          cases hm.symm.trans hm'
          cases hroot
      | child hm' h' =>
          cases hm.symm.trans hm'
          exact ih h'

/-- By induction on the number of the call: a parent is made before its children. -/
theorem ParentsReturned.exists_root (hp : s.ParentsReturned) (hc : s.span i = some c) :
    ∃ r d, s.RootOf i r ∧ s.span r = some d := by
  induction i using Nat.strong_induction_on generalizing c with
  | h i ih =>
      obtain ⟨maker, hm⟩ := makerAt_of_span hc
      cases hchild : maker.isChild with
      | false => exact ⟨i, c, .root hm hchild, hc⟩
      | true =>
          cases maker with
          | childSpan parent self operation =>
              obtain ⟨hlt, hself⟩ := hp i parent self operation hm
              obtain ⟨r, d, hr, hd⟩ := ih parent hlt hself
              exact ⟨r, d, .child hm hr, hd⟩
          | _ => cases hchild

/-- A span has the trace id and the service of its root. -/
theorem RootOf.inherits (h : s.RootOf i r) (hp : s.ParentsReturned) (hc : s.span i = some c)
    (hd : s.span r = some d) : c.traceId = d.traceId ∧ c.serviceName = d.serviceName := by
  induction h generalizing c with
  | root =>
      cases hc.symm.trans hd
      exact ⟨rfl, rfl⟩
  | child hm _ ih =>
      obtain ⟨_, hself⟩ := hp _ _ _ _ hm
      obtain ⟨spanId, rfl⟩ := context_of_makerAt hm hc
      have hparent := ih hself hd
      exact hparent

/-! ## One step -/

/-- A step with the clock at any reading is one of a process that has not read the clock before. -/
theorem step_effect (h : s.step e = some s') :
    ∃ p', TracedProcess.Effect { tracing := s } e p' ∧ p'.tracing = s' := by
  cases e with
  | now i time =>
      refine ⟨{ tracing := s', readings := [time] }, TracedProcess.step_effect ?_, rfl⟩
      simp [TracedProcess.step, h]
  | fetchAdd i =>
      refine ⟨{ tracing := s', counted := [s.traceCounter] }, TracedProcess.step_effect ?_, rfl⟩
      simp [TracedProcess.step, h]
  | _ =>
      refine ⟨{ tracing := s' }, TracedProcess.step_effect ?_, rfl⟩
      simp [TracedProcess.step, h]

theorem ParentsReturned.step (hp : s.ParentsReturned) (h : s.step e = some s') : s'.ParentsReturned := by
  obtain ⟨p', heffect, rfl⟩ := step_effect h
  intro i parent self operation hm
  rcases heffect.makers hm with hm | ⟨rfl, hself⟩
  · obtain ⟨hlt, hself⟩ := hp i parent self operation hm
    exact ⟨hlt, heffect.span_kept hself⟩
  · exact ⟨lt_of_span hself, heffect.span_kept hself⟩

/-! ## The trace ids of `new` -/

theorem traceIdText_inj {n m : UInt64} (h : traceIdText n = traceIdText m) : n = m := by
  have hlist := congrArg String.toList h
  simp only [traceIdText, String.toList_append] at hlist
  have htext : hex16 n = hex16 m := String.toList_inj.mp (List.append_cancel_left hlist)
  exact spanIdText_inj (congrArg ("span-" ++ ·) htext)

/-- Of the `k` numbers that have been taken off the counter, each call of `new` has one of its own. -/
structure Numbered (s : Tracing) (k : Nat) : Prop where
  counter : s.traceCounter = UInt64.ofNat (1 + k)
  taken : ∀ i maker, s.makerAt i = some maker → maker.isNew = true →
    ∃ n, n < k ∧ maker.traceId = traceIdText (UInt64.ofNat (1 + n))
  own : ∀ i j maker maker', s.makerAt i = some maker → s.makerAt j = some maker' → maker.isNew = true →
    maker'.isNew = true → maker.traceId = maker'.traceId → i = j

/-- What a step does to the counter and to the constructors of the calls. -/
theorem step_makers (h : s.step e = some s') :
    s'.traceCounter = (if e.draws then s.traceCounter + 1 else s.traceCounter) ∧
      (s'.makerAt = s.makerAt ∨ ∃ maker : SpanMaker, s'.calls = s.calls ++ [({ maker } : SpanCall)] ∧
        (maker.isNew = true → e.draws = true ∧ maker.traceId = traceIdText s.traceCounter)) := by
  cases e with
  | new serviceName operation =>
      cases h
      exact ⟨rfl, Or.inr ⟨_, rfl, fun _ => ⟨rfl, rfl⟩⟩⟩
  | childSpan parent operation =>
      obtain ⟨self, _, rfl⟩ := Option.map_eq_some_iff.mp h
      exact ⟨rfl, Or.inr ⟨_, rfl, fun hnew => by cases hnew⟩⟩
  | fromParent traceId parentSpanId serviceName operation =>
      cases h
      exact ⟨rfl, Or.inr ⟨_, rfl, fun hnew => by cases hnew⟩⟩
  | generateTraceId =>
      cases h
      exact ⟨rfl, Or.inl rfl⟩
  | now i time =>
      simp only [step] at h
      split at h
      · rename_i maker hcall
        cases h
        exact ⟨rfl, Or.inl (makerAt_set hcall)⟩
      · cases h
  | fetchAdd i =>
      simp only [step] at h
      split at h
      · rename_i maker hcall
        cases h
        exact ⟨rfl, Or.inl (makerAt_set hcall)⟩
      · cases h

theorem ofNat_inj_of_lt {n k : Nat} (hn : n < k) (hk : k < UInt64.size) :
    UInt64.ofNat (1 + n) ≠ UInt64.ofNat (1 + k) := by
  intro h
  have hnat := congrArg UInt64.toNat h
  rw [UInt64.toNat_ofNat', UInt64.toNat_ofNat'] at hnat
  unfold UInt64.size at hk
  omega

theorem makerAt_snoc {maker maker' : SpanMaker} (h : s'.calls = s.calls ++ [({ maker } : SpanCall)])
    (hm : s'.makerAt i = some maker') : s.makerAt i = some maker' ∨ i = s.calls.length ∧ maker' = maker := by
  obtain ⟨call, hcall, hmaker⟩ := Option.map_eq_some_iff.mp hm
  rw [h] at hcall
  rcases TaskPool.getElem?_snoc_cases hcall with hcall | ⟨rfl, rfl⟩
  · exact Or.inl (Option.map_eq_some_iff.mpr ⟨call, hcall, hmaker⟩)
  · exact Or.inr ⟨rfl, hmaker.symm⟩

theorem Numbered.step {k : Nat} (hn : s.Numbered k) (h : s.step e = some s')
    (hk : e.draws = true → k < UInt64.size) : s'.Numbered (k + e.draws.toNat) := by
  obtain ⟨hcounter, hmakers⟩ := step_makers h
  have hnext : s'.traceCounter = UInt64.ofNat (1 + (k + e.draws.toNat)) := by
    rw [hcounter, hn.counter]
    cases e.draws with
    | false => rfl
    | true => exact (UInt64.ofNat_add (1 + k) 1).symm
  rcases hmakers with hsame | ⟨maker, hcalls, hnew⟩
  · refine ⟨hnext, ?_, ?_⟩
    · intro i maker hm hnew
      rw [hsame] at hm
      obtain ⟨n, hlt, hid⟩ := hn.taken i maker hm hnew
      exact ⟨n, by omega, hid⟩
    · rw [hsame]
      exact hn.own
  · have hfresh : ∀ i maker', s.makerAt i = some maker' → maker'.isNew = true → maker.isNew = true →
        maker'.traceId ≠ maker.traceId := by
      intro i maker' hm hnew' hmaker heq
      obtain ⟨n, hlt, hid⟩ := hn.taken i maker' hm hnew'
      obtain ⟨hdraws, hid'⟩ := hnew hmaker
      rw [hid, hid', hn.counter] at heq
      exact ofNat_inj_of_lt hlt (hk hdraws) (traceIdText_inj heq)
    refine ⟨hnext, ?_, ?_⟩
    · intro i maker' hm hnew'
      rcases makerAt_snoc hcalls hm with hm | ⟨rfl, rfl⟩
      · obtain ⟨n, hlt, hid⟩ := hn.taken i maker' hm hnew'
        exact ⟨n, by omega, hid⟩
      · obtain ⟨hdraws, hid⟩ := hnew hnew'
        refine ⟨k, by rw [hdraws]; exact Nat.lt_succ_self k, ?_⟩
        rw [hid, hn.counter]
    · intro i j m m' hi hj hm hm' heq
      rcases makerAt_snoc hcalls hi with hi | ⟨rfl, rfl⟩ <;> rcases makerAt_snoc hcalls hj with hj | ⟨rfl, rfl⟩
      · exact hn.own i j m m' hi hj hm hm' heq
      · exact absurd heq (hfresh i m hi hm hm')
      · exact absurd heq.symm (hfresh j m' hj hm' hm)
      · rfl

theorem Numbered.fresh : Numbered {} 0 where
  counter := rfl
  taken := by
    intro i maker hm
    cases hm
  own := by
    intro i j maker maker' hm
    cases hm

theorem Numbered.run : ∀ {es : List TraceEvent} {s s' : Tracing} {k : Nat}, s.Numbered k →
    k + es.countP TraceEvent.draws ≤ UInt64.size → Steps.run Tracing.step s es = some s' →
      s'.Numbered (k + es.countP TraceEvent.draws)
  | [], s, s', k, hn, _, hr => by
      simp only [run_nil, Option.some.injEq] at hr
      subst hr
      exact hn
  | e :: es, s, s', k, hn, hk, hr => by
      obtain ⟨s₁, hs, hr⟩ := run_cons_eq_some.mp hr
      have hcount : (e :: es).countP TraceEvent.draws = e.draws.toNat + es.countP TraceEvent.draws := by
        rw [List.countP_cons, Nat.add_comm]
        cases e.draws <;> rfl
      rw [hcount, ← Nat.add_assoc] at hk ⊢
      have hdraws : e.draws = true → k < UInt64.size := by
        intro h
        rw [h, Bool.toNat_true] at hk
        omega
      exact Numbered.run (hn.step hs hdraws) hk hr

/-- Spans under roots of `new` have one trace id exactly if they are under one root. -/
theorem Numbered.same_trace {k : Nat} (hn : s.Numbered k) (hp : s.ParentsReturned) (hc : s.span i = some c)
    (hd : s.span j = some d) (hi : s.RootOf i r) (hj : s.RootOf j q) (hr : s.IsNew r) (hq : s.IsNew q) :
    c.traceId = d.traceId ↔ r = q := by
  obtain ⟨r', c', hr', hc'⟩ := hp.exists_root hc
  obtain ⟨q', d', hq', hd'⟩ := hp.exists_root hd
  obtain rfl := hi.unique hr'
  obtain rfl := hj.unique hq'
  rw [(hi.inherits hp hc hc').1, (hj.inherits hp hd hd').1]
  constructor
  · intro heq
    obtain ⟨maker, hm, hnew⟩ := hr
    obtain ⟨maker', hm', hnew'⟩ := hq
    have hid : ∀ {i : Nat} {c : TraceContext} {maker : SpanMaker}, s.makerAt i = some maker → s.span i = some c →
        c.traceId = maker.traceId := by
      intro i c maker hm hc
      obtain ⟨spanId, rfl⟩ := context_of_makerAt hm hc
      cases maker <;> rfl
    rw [hid hm hc', hid hm' hd'] at heq
    exact hn.own r q maker maker' hm hm' hnew hnew' heq
  · rintro rfl
    cases hc'.symm.trans hd'
    rfl

end Tracing

end NetworkSystem
