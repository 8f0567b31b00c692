/-
DiskWatch/Telemetry/Span.lean

Spans: the stretches of work that belong to a scheduling cycle.  A cycle is the
root; admission, hand-over to the queue, processing, external commands and the
reading of their reports lie below it.  A span keeps every outcome that is
recorded on it, in order, so that it can be told how often that happens.
-/
import DiskWatch.Error
import DiskWatch.Job

namespace DiskWatch

/-- The decision about a tick. -/
inductive Admission
  | admitted
  | alreadyRunning
  | unregistered
  deriving DecidableEq, Repr

/-- The decision as it is recorded. -/
def Admission.label : Admission → String
  | .admitted => "admitted"
  | .alreadyRunning => "skipped"
  | .unregistered => "unregistered"

/-- How a cycle or the processing of a job ended. -/
inductive Outcome
  | skipped
  | unregistered
  | enqueueFailed
  | completed
  | timedOut
  | shutdown
  | success
  | failure
  deriving DecidableEq, Repr

/-- The outcome as it is recorded. -/
def Outcome.label : Outcome → String
  | .skipped => "skipped"
  | .unregistered => "unregistered"
  | .enqueueFailed => "enqueue_failed"
  | .completed => "completed"
  | .timedOut => "timeout"
  | .shutdown => "shutdown"
  | .success => "success"
  | .failure => "failure"

/-- What a span is about. -/
inductive SpanKind
  | cycle (category : Category) (target : String) (job : JobId)
  | admission (category : Category) (target : String) (decision : Admission)
  | enqueue (job : JobId) (depth : Nat)
  | process (category : Category) (target : String) (job : JobId) (path : Path)
  /-- The duration is there once the command has ended, the exit code if it
  ended with one. -/
  | command (program : String) (arguments : List String) (limit : Duration)
      (exitCode : Option Int) (duration : Option Duration)
  /-- The number of samples is there if the report was read as a table. -/
  | parse (tool : Tool) (lines : Nat) (samples : Option Nat)
  deriving DecidableEq, Repr

/-- A span.  Spans are numbered in the order in which they are opened. -/
structure Span where
  parent : Option Nat
  kind : SpanKind
  outcomes : List (Outcome × Duration)
  deriving DecidableEq, Repr

/-- The value of a field of a span. -/
inductive SpanValue
  | text (s : String)
  | job (id : JobId)
  | millis (d : Duration)
  deriving DecidableEq, Repr

namespace Span

/-- The span with one more outcome. -/
def conclude (outcome : Outcome) (duration : Duration) (s : Span) : Span :=
  { s with outcomes := s.outcomes ++ [(outcome, duration)] }

/-- The name of a span. -/
def name (s : Span) : String :=
  match s.kind with
  | .cycle .. => "collection.cycle"
  | .admission .. => "scheduler.admission"
  | .enqueue .. => "queue.enqueue"
  | .process .. => "job.process"
  | .command .. => "command.exec"
  | .parse .. => "output.parse"

/-- The fields that a kind of span brings along. -/
def kindFields : SpanKind → List (String × SpanValue)
  | .cycle category target job =>
    [("duwatch.category", .text category.name), ("duwatch.target", .text target),
      ("duwatch.job_id", .job job)]
  | .admission category target decision =>
    [("duwatch.category", .text category.name), ("duwatch.target", .text target),
      ("duwatch.decision", .text decision.label)]
  | .enqueue job depth =>
    [("duwatch.job_id", .job job), ("duwatch.queue_depth", .text (Text.showNat depth))]
  | .process category target job path =>
    [("duwatch.category", .text category.name), ("duwatch.target", .text target),
      ("duwatch.job_id", .job job), ("duwatch.path", .text path.text)]
  | .command program arguments limit exitCode duration =>
    [("process.executable.name", .text program),
      ("process.command_args", .text (" ".intercalate arguments)),
      ("duwatch.timeout_ms", .text (Text.showNat limit.millisWord.toNat))] ++
      (exitCode.map fun code => ("process.exit.code", .text (Text.showInt code))).toList ++
      (duration.map fun d => ("duwatch.duration_ms", .millis d)).toList
  | .parse tool lines samples =>
    [("duwatch.tool", .text tool.name), ("duwatch.lines", .text (Text.showNat lines))] ++
      (samples.map fun n => ("duwatch.samples", .text (Text.showNat n))).toList

/-- The fields of a span; of the outcomes the last one shows. -/
def fields (s : Span) : List (String × SpanValue) :=
  kindFields s.kind ++
    match s.outcomes.getLast? with
    | some (outcome, duration) =>
      [("duwatch.outcome", .text outcome.label), ("duwatch.duration_ms", .millis duration)]
    | none => []

end Span

end DiskWatch
