import NetworkSystem.Tracing.Lemmas.Roots

/-!
# What the identifiers of a span tell

When span ids are unique, and which spans have one trace id. Two calls that read the clock at the same nanosecond give
their spans one span id; trace ids do not depend on the clock.
-/

namespace NetworkSystem

open Steps

/-- In every run of calls of the constructors, by any tasks and under a clock that is never set back: the span ids
are distinct, and what `child_span` writes as the parent is the id of that span only, if and only if each call takes
a number that is apart from the earlier readings and from the numbers that the counter has given to spans. -/
theorem span_ids_unique_iff (es : List TraceEvent) :
    Always TracedProcess.step (fun p => p.tracing.SpanIdsDistinct ∧ p.tracing.ParentsNamed) {} es ↔
      Along TracedProcess.step TracedProcess.TakesNew {} es := by
  have hfresh : TracedProcess.Recorded {} ∧ ({} : TracedProcess).tracing.SpanIdsDistinct :=
    ⟨.fresh, (by intro i j id hi; cases hi)⟩
  refine always_iff_along (I := fun p => p.Recorded ∧ p.tracing.SpanIdsDistinct) ?_ ?_ ?_ ?_ hfresh
  · exact fun p h => ⟨h.2, h.1.parents.named h.2⟩
  · intro p e p' h hs
    have heffect := TracedProcess.step_effect hs
    rw [TracedProcess.takesNew_iff hs, ← heffect.distinct_iff h.1 h.2]
    exact ⟨fun h' => h'.1, fun h' => ⟨h', (h.1.step heffect).parents.named h'⟩⟩
  · intro p e p' h hC hs
    have heffect := TracedProcess.step_effect hs
    exact ⟨h.1.step heffect, (heffect.distinct_iff h.1 h.2).mpr ((TracedProcess.takesNew_iff hs).mp hC)⟩
  · intro p e _ hs hsome
    rw [hs] at hsome
    cases hsome

/-- A span from before the epoch has the number 2 of the counter. A child that reads 2 nanoseconds would have it as
well. -/
example :
    Along TracedProcess.step TracedProcess.TakesNew {}
      [.new "service" "parent-op", .now 0 (-1), .fetchAdd 0, .childSpan 0 "child-op", .now 1 3] ∧
    ¬ Along TracedProcess.step TracedProcess.TakesNew {}
      [.new "service" "parent-op", .now 0 (-1), .fetchAdd 0, .childSpan 0 "child-op", .now 1 2] := by
  decide

/-- While the clock is within 2⁶⁴ nanoseconds after the epoch, no call takes a number of the counter, and a number is
new if and only if the clock has ticked since the last call. -/
theorem span_numbers_new_iff_ticked (es : List TraceEvent) (hfits : ∀ e ∈ es, e.Fits) :
    Along TracedProcess.step TracedProcess.TakesNew {} es ↔
      Along TracedProcess.step TracedProcess.Ticked {} es := by
  refine along_congr_under (D := fun _ e => e.Fits) ?_ ?_ TracedProcess.OnClock.fresh (along_of_forall hfits)
  · exact fun p e p' h he _ hs => h.step he (TracedProcess.step_effect hs)
  · exact fun p e h he => h.takesNew_iff he

/-- `child_span` is called, and reads the clock, in the nanosecond in which `new` did. -/
def childAtOnce : List TraceEvent :=
  [.new "service" "parent-op", .now 0 5, .childSpan 0 "child-op", .now 1 5]

/-- The child has the id of its parent, and is its own parent by it. -/
theorem span_id_repeats_at_once :
    (∃ p ∈ run TracedProcess.step {} childAtOnce, p.readings = [5, 5] ∧
      p.tracing.span 0 = some
        { traceId := "trace-0000000000000001", spanId := "span-0000000000000005", parentSpanId := none,
          serviceName := "service", operation := "parent-op" } ∧
      p.tracing.span 1 = some
        { traceId := "trace-0000000000000001", spanId := "span-0000000000000005",
          parentSpanId := some "span-0000000000000005", serviceName := "service", operation := "child-op" }) ∧
    ¬ Always TracedProcess.step (fun p => p.tracing.SpanIdsDistinct ∧ p.tracing.ParentsNamed) {} childAtOnce := by
  refine ⟨⟨_, rfl, by decide⟩, ?_⟩
  intro h
  have hdistinct := (h.last rfl).1
  have hsame : (0 : Nat) = 1 := hdistinct 0 1 (spanIdText 5) rfl rfl
  cases hsame

/-! ## Traces -/

/-- In every run of calls of the constructors, by any tasks and with any readings of the clock, every span is under one
root and has its trace id and its service. As long as the counter has not given more than 2⁶⁴ numbers, spans under
roots of `new` have one trace id if and only if they are under one root. -/
theorem traces_correlate (es : List TraceEvent) (s : Tracing) (hr : run Tracing.step {} es = some s) :
    (∀ i c, s.span i = some c → ∃ r d, s.RootOf i r ∧ (∀ q, s.RootOf i q → q = r) ∧ s.span r = some d ∧
      c.traceId = d.traceId ∧ c.serviceName = d.serviceName) ∧
    (es.countP TraceEvent.draws ≤ UInt64.size → ∀ i j r q c d, s.span i = some c → s.span j = some d →
      s.RootOf i r → s.RootOf j q → s.IsNew r → s.IsNew q → (c.traceId = d.traceId ↔ r = q)) := by
  have hparents : s.ParentsReturned := by
    refine run_invariant (I := Tracing.ParentsReturned) (fun _ _ _ h hs => h.step hs) ?_ hr
    intro i parent self operation hm
    cases hm
  constructor
  · intro i c hc
    obtain ⟨r, d, hroot, hd⟩ := hparents.exists_root hc
    obtain ⟨htrace, hservice⟩ := hroot.inherits hparents hc hd
    exact ⟨r, d, hroot, fun q hq => hq.unique hroot, hd, htrace, hservice⟩
  · intro hdraws i j r q c d hc hd hi hj hnewr hnewq
    have hnumbered := Tracing.Numbered.fresh.run (by rwa [Nat.zero_add]) hr
    exact hnumbered.same_trace hparents hc hd hi hj hnewr hnewq

/-- Two requests at one reading of the clock, the first with a child and a child of that. -/
def twoRequests : List TraceEvent :=
  [.new "web" "get", .new "web" "put", .now 1 5, .now 0 5, .childSpan 0 "query", .now 2 5, .childSpan 2 "row", .now 3 5]

theorem traces_correlate_two_requests :
    ∃ s c d, run Tracing.step {} twoRequests = some s ∧ s.span 3 = some c ∧ s.span 1 = some d ∧
      c.spanId = d.spanId ∧ c.traceId ≠ d.traceId := by
  let stamp : String := "span-0000000000000005"
  let get : TraceContext := ⟨"trace-0000000000000001", stamp, none, "web", "get"⟩
  let query : TraceContext := ⟨"trace-0000000000000001", stamp, some stamp, "web", "query"⟩
  let s : Tracing := ⟨3, [⟨.new "trace-0000000000000001" "web" "get", .stamped stamp⟩,
    ⟨.new "trace-0000000000000002" "web" "put", .stamped stamp⟩, ⟨.childSpan 0 get "query", .stamped stamp⟩,
    ⟨.childSpan 2 query "row", .stamped stamp⟩]⟩
  have hr : run Tracing.step {} twoRequests = some s := by decide +kernel
  have hroot : s.RootOf 3 0 := .child (show s.makerAt 3 = some (.childSpan 2 query "row") from rfl)
    (.child (show s.makerAt 2 = some (.childSpan 0 get "query") from rfl) (.root rfl rfl))
  have hsame := (traces_correlate twoRequests s hr).2 (by decide) 3 1 0 1 _ _ rfl rfl hroot (.root rfl rfl)
    ⟨_, rfl, rfl⟩ ⟨_, rfl, rfl⟩
  exact ⟨s, _, _, hr, rfl, rfl, rfl, fun h => absurd (hsame.mp h) (by decide)⟩

end NetworkSystem
