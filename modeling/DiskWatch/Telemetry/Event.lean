/-
DiskWatch/Telemetry/Event.lean

Events worth a line in the log.  An event says what happened; its level, its
message and its fields follow from that.

Lines below the level of `info` are left out: of a job that was cleared although no
target was marked with it, of a job that went into its queue, of a watchdog that closed
as completed or at a shutdown, of a timer that has stopped, of a call that begins, and
of a failure that is not worth another attempt.  They are off unless someone asks for
them, and nothing depends on them.
-/
import DiskWatch.Error
import DiskWatch.Job

namespace DiskWatch

/-- How grave an event is. -/
inductive Level
  | info
  | warn
  | error
  deriving DecidableEq, Repr

/-- The name of a level. -/
def Level.name : Level → String
  | .info => "INFO"
  | .warn => "WARN"
  | .error => "ERROR"

/-- The running totals of the scheduler. -/
structure Stats where
  enqueued : UInt64
  skipped : UInt64
  enqueueFailed : UInt64
  watchdogCompleted : UInt64
  watchdogTimeouts : UInt64
  deriving DecidableEq, Repr

/-- The totals at the start. -/
def Stats.zero : Stats := ⟨0, 0, 0, 0, 0⟩

/-- Something that happened. -/
inductive Event
  | backingOff (operation : String) (attempt : Nat) (delay : Duration) (error : Error)
  | retriesExhausted (operation : String) (attempts : Nat) (error : Error)
  | outsideTarget (base path : Path)
  | unregisteredRun (category : Category) (target : String) (job : JobId)
  | workerStarted (category : Category)
  | workerStopped (category : Category)
  | transition (before after : String)
  | collected (duration : Duration)
  | collectionFailed (error : Error) (duration : Duration)
  | unpublished (job : JobId)
  | slowJob (duration interval : Duration)
  | intervalShort (category : Category) (target : String) (interval timeout : Duration)
  | schedulerStarted (targets : Nat)
  | tickSkipped
  | unregisteredTick (category : Category) (target : String)
  | enqueueFailed (error : Error)
  | watchdogGaveUp (error : Error)
  | coordinatorRunning (filesystems directories capacity : Nat)
  | shutdownRequested
  | taskFailed (error : String)
  | coordinatorStopped (stats : Stats)
  | targetSummary (category : Category) (target : String) (completedRuns : UInt64)
      (running : Bool) (lastDuration : Option Duration)
  deriving DecidableEq, Repr

namespace Event

/-- The level of an event. -/
def level : Event → Level
  | backingOff .. | retriesExhausted .. | outsideTarget .. | unregisteredRun .. | unpublished ..
  | slowJob .. | intervalShort .. | unregisteredTick .. | enqueueFailed .. | watchdogGaveUp ..
  | taskFailed .. => .warn
  | collectionFailed .. => .error
  | _ => .info

/-- The message of an event. -/
def message : Event → String
  | backingOff .. => "attempt failed, backing off"
  | retriesExhausted .. => "retries exhausted"
  | outsideTarget .. => "du reported path outside target"
  | unregisteredRun .. => "set_running_job for unregistered target, ignoring"
  | workerStarted _ => "worker started"
  | workerStopped _ => "worker stopped"
  | transition .. => "state_transition"
  | collected _ => "collection succeeded"
  | collectionFailed .. => "collection failed"
  | unpublished _ => "measurement does not match job kind, not published"
  | slowJob .. => "slow job: took more than half the collection interval"
  | intervalShort .. =>
    "interval is shorter than timeout; slow runs will skip the following ticks"
  | schedulerStarted _ => "scheduler started"
  | tickSkipped => "previous job still running, skipping tick"
  | unregisteredTick .. => "tick for unregistered target"
  | enqueueFailed _ => "enqueue failed, retrying next tick"
  | watchdogGaveUp _ => "watchdog gave up waiting for job"
  | coordinatorRunning .. => "coordinator running"
  | shutdownRequested => "shutdown requested, waiting for tasks"
  | taskFailed _ => "task ended abnormally"
  | coordinatorStopped _ => "coordinator stopped"
  | targetSummary .. => "target summary"

/-- The text of a truth value. -/
def boolText (b : Bool) : String := if b then "true" else "false"

/-- The milliseconds of a length of time, as a field. -/
def millisText (d : Duration) : String := Text.showNat d.millisWord.toNat

/-- The fields of an event. -/
def fields : Event → List (String × String)
  | backingOff operation attempt delay error =>
    [("operation", operation), ("attempt", Text.showNat attempt), ("delay", delay.render),
      ("error", error.message)]
  | retriesExhausted operation attempts error =>
    [("operation", operation), ("attempts", Text.showNat attempts), ("error", error.message)]
  | outsideTarget base path => [("base", base.text), ("path", path.text)]
  | unregisteredRun category target job =>
    [("category", category.name), ("target", target), ("job_id", job.text)]
  | workerStarted category | workerStopped category => [("category", category.name)]
  | transition before after => [("from", before), ("to", after)]
  | collected duration => [("duration_ms", millisText duration)]
  | collectionFailed error duration =>
    [("error", error.message), ("error_kind", error.kind), ("duration_ms", millisText duration)]
  | unpublished job => [("job_id", job.text)]
  | slowJob duration interval =>
    [("duration_ms", millisText duration), ("interval_ms", millisText interval)]
  | intervalShort category target interval timeout =>
    [("category", category.name), ("target", target), ("interval", interval.render),
      ("timeout", timeout.render)]
  | schedulerStarted targets => [("targets", Text.showNat targets)]
  | tickSkipped | shutdownRequested => []
  | unregisteredTick category target => [("category", category.name), ("target", target)]
  | enqueueFailed error | watchdogGaveUp error => [("error", error.message)]
  | coordinatorRunning filesystems directories capacity =>
    [("filesystems", Text.showNat filesystems), ("directories", Text.showNat directories),
      ("queue_capacity", Text.showNat capacity)]
  | taskFailed error => [("error", error)]
  | coordinatorStopped stats =>
    [("enqueued", Text.showNat stats.enqueued.toNat),
      ("skipped", Text.showNat stats.skipped.toNat),
      ("enqueue_failed", Text.showNat stats.enqueueFailed.toNat),
      ("watchdog_timeouts", Text.showNat stats.watchdogTimeouts.toNat)]
  | targetSummary category target completedRuns running lastDuration =>
    [("category", category.name), ("target", target),
      ("completed_runs", Text.showNat completedRuns.toNat), ("running", boolText running)] ++
      (lastDuration.map fun d => ("last_duration_ms", millisText d)).toList

end Event

end DiskWatch
