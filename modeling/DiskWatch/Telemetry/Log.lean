/-
DiskWatch/Telemetry/Log.lean

All that a run leaves behind for observers: events, spans and metrics.  Each
kind is only ever added to, so what was recorded stays as it was.
-/
import DiskWatch.Telemetry.Event
import DiskWatch.Telemetry.Metric
import DiskWatch.Telemetry.Span

namespace DiskWatch

/-- What a run has recorded so far. -/
structure Telemetry where
  events : List Event
  spans : List Span
  metrics : Metrics

namespace Telemetry

/-- Nothing recorded yet. -/
def empty : Telemetry := ⟨[], [], .empty⟩

/-- Records an event. -/
def log (t : Telemetry) (e : Event) : Telemetry := { t with events := t.events ++ [e] }

/-- Opens a span; its number is the number of spans before it. -/
def openSpan (t : Telemetry) (parent : Option Nat) (kind : SpanKind) : Nat × Telemetry :=
  (t.spans.length, { t with spans := t.spans ++ [⟨parent, kind, []⟩] })

/-- Records a span that is closed at once. -/
def addSpan (t : Telemetry) (parent : Option Nat) (kind : SpanKind) : Telemetry :=
  (t.openSpan parent kind).2

/-- Records an outcome on a span. -/
def conclude (t : Telemetry) (span : Nat) (outcome : Outcome) (duration : Duration) : Telemetry :=
  { t with spans := t.spans.modify span (.conclude outcome duration) }

/-- Adds one to a counter. -/
def count (t : Telemetry) (key : Counter) : Telemetry :=
  { t with metrics := t.metrics.count key }

/-- Sets a gauge. -/
def record (t : Telemetry) (key : Gauge) (value : Reading) : Telemetry :=
  { t with metrics := t.metrics.record key value }

@[simp] theorem spans_log (t : Telemetry) (e : Event) : (t.log e).spans = t.spans := rfl

@[simp] theorem spans_count (t : Telemetry) (key : Counter) : (t.count key).spans = t.spans := rfl

@[simp] theorem spans_record (t : Telemetry) (key : Gauge) (value : Reading) :
    (t.record key value).spans = t.spans := rfl

@[simp] theorem spans_addSpan (t : Telemetry) (parent : Option Nat) (kind : SpanKind) :
    (t.addSpan parent kind).spans = t.spans ++ [⟨parent, kind, []⟩] := rfl

@[simp] theorem spans_conclude (t : Telemetry) (span : Nat) (outcome : Outcome)
    (duration : Duration) :
    (t.conclude span outcome duration).spans = t.spans.modify span (.conclude outcome duration) :=
  rfl

/-- The names of a span and the spans above it, from the outermost one. -/
def spanPath (t : Telemetry) (span : Nat) : List String :=
  go (t.spans.length + 1) (some span)
where
  /-- Follows at most `fuel` parents. -/
  go : Nat → Option Nat → List String
    | 0, _ => []
    | _, none => []
    | fuel + 1, some i =>
      match t.spans[i]? with
      | some s => go fuel s.parent ++ [s.name]
      | none => []

end Telemetry

end DiskWatch
