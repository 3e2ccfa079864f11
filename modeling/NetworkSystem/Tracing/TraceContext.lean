import NetworkSystem.Lib.Hex
import NetworkSystem.Lib.Steps

/-!
# Trace contexts

The constructors of `TraceContext` in `src/tracing/mod.rs`. Any number of tasks call them on the one
`TRACE_COUNTER` of the process and read the system clock. A step of a call goes from one access of the counter
or of the clock to the next. A reading of the clock is in nanoseconds from the epoch, below zero before it.
-/

namespace NetworkSystem

/-! ## Identifiers -/

/-- `{:016x}` of an `u64`. -/
def hex16 (id : UInt64) : String := String.ofList (Hex.padded 16 id.toNat)

def traceIdText (id : UInt64) : String := "trace-" ++ hex16 id

def spanIdText (now : UInt64) : String := "span-" ++ hex16 now

/-- `duration_since(UNIX_EPOCH)`, and of its nanoseconds what `as u64` leaves. It fails before the epoch. -/
def sinceEpoch (time : Int) : Option UInt64 := if 0 ≤ time then some (UInt64.ofNat time.toNat) else none

/-! ## Contexts -/

structure TraceContext where
  traceId : String
  spanId : String
  parentSpanId : Option String
  serviceName : String
  operation : String
  deriving Repr, DecidableEq

/-- The constructor of a span and its arguments; `new` has its trace id already. `child_span` is called on the
context of the span `parent`. -/
inductive SpanMaker where
  | new (traceId serviceName operation : String)
  | childSpan (parent : Nat) (self : TraceContext) (operation : String)
  | fromParent (traceId parentSpanId serviceName operation : String)
  deriving Repr, DecidableEq

def SpanMaker.context (spanId : String) : SpanMaker → TraceContext
  | .new traceId serviceName operation => { traceId, spanId, parentSpanId := none, serviceName, operation }
  | .childSpan _ self operation =>
      { traceId := self.traceId, spanId, parentSpanId := some self.spanId, serviceName := self.serviceName,
        operation }
  | .fromParent traceId parentSpanId serviceName operation =>
      { traceId, spanId, parentSpanId := some parentSpanId, serviceName, operation }

/-! ## Calls -/

/-- How far `generate_span_id` is in a call. -/
inductive SpanStage where
  /-- Before the clock. -/
  | stamping
  /-- The clock is before the epoch, and the counter is next. -/
  | counting
  | stamped (spanId : String)
  deriving Repr, DecidableEq

structure SpanCall where
  maker : SpanMaker
  stage : SpanStage := .stamping
  deriving Repr, DecidableEq

def SpanCall.context (call : SpanCall) : Option TraceContext :=
  match call.stage with
  | .stamped spanId => some (call.maker.context spanId)
  | _ => none

inductive TraceEvent where
  | new (serviceName operation : String)
  | childSpan (parent : Nat) (operation : String)
  | fromParent (traceId parentSpanId serviceName operation : String)
  /-- `generate_trace_id` on its own. -/
  | generateTraceId
  /-- `SystemTime::now()` in a call. -/
  | now (call : Nat) (time : Int)
  /-- `TRACE_COUNTER.fetch_add` in a call, after a reading before the epoch. -/
  | fetchAdd (call : Nat)
  deriving Repr, DecidableEq

/-- The counter, and the calls in the order in which they were made. -/
structure Tracing where
  traceCounter : UInt64 := 1
  calls : List SpanCall := []
  deriving Repr, DecidableEq

namespace Tracing

/-- The context that a call has returned. -/
def span (s : Tracing) (i : Nat) : Option TraceContext := (s.calls[i]?).bind SpanCall.context

def step (s : Tracing) : TraceEvent → Option Tracing
  | .new serviceName operation =>
      some { traceCounter := s.traceCounter + 1,
             calls := s.calls ++ [{ maker := .new (traceIdText s.traceCounter) serviceName operation }] }
  | .childSpan parent operation =>
      (s.span parent).map fun self =>
        { s with calls := s.calls ++ [{ maker := .childSpan parent self operation }] }
  | .fromParent traceId parentSpanId serviceName operation =>
      some { s with
        calls := s.calls ++ [{ maker := .fromParent traceId parentSpanId serviceName operation }] }
  | .generateTraceId => some { s with traceCounter := s.traceCounter + 1 }
  | .now call time =>
      match s.calls[call]? with
      | some ⟨maker, .stamping⟩ =>
          let stage := match sinceEpoch time with
            | some now => .stamped (spanIdText now)
            | none => .counting
          some { s with calls := s.calls.set call { maker, stage } }
      | _ => none
  | .fetchAdd call =>
      match s.calls[call]? with
      | some ⟨maker, .counting⟩ =>
          some { traceCounter := s.traceCounter + 1,
                 calls := s.calls.set call { maker, stage := .stamped (spanIdText s.traceCounter) } }
      | _ => none

end Tracing

/-! ## Under a clock -/

/-- The process, the readings of its clock, and the numbers that the counter has given to spans. -/
structure TracedProcess where
  tracing : Tracing := {}
  readings : List Int := []
  counted : List UInt64 := []
  deriving Repr, DecidableEq

/-- The clock is never set back. -/
def TracedProcess.step (p : TracedProcess) (e : TraceEvent) : Option TracedProcess :=
  match e with
  | .now _ time =>
      if ∀ earlier ∈ p.readings, earlier ≤ time then
        (p.tracing.step e).map fun tracing => { p with tracing, readings := time :: p.readings }
      else none
  | .fetchAdd _ =>
      (p.tracing.step e).map fun tracing =>
        { p with tracing, counted := p.tracing.traceCounter :: p.counted }
  | _ => (p.tracing.step e).map fun tracing => { p with tracing }

end NetworkSystem
