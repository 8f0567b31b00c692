/-
DiskWatch/Job.lean

Targets and jobs.  A target is something measured on a schedule; every
admitted tick of a target makes one job, which the worker of its category
takes once.  The identifier of a job ends in a running number, so no two jobs
of a process share one, whatever the clock says.
-/
import DiskWatch.Category
import DiskWatch.Duration
import DiskWatch.Path
import DiskWatch.Text.Number

namespace DiskWatch

/-! ### What is measured -/

/-- A file system, at its mount point.  The device is a label only. -/
structure FilesystemJob where
  mountPoint : Path
  device : String
  deriving DecidableEq, Repr

/-- A directory, with its subdirectories down to `levels`; level 0 is the
directory alone. -/
structure DirectoryJob where
  path : Path
  levels : UInt32
  deriving DecidableEq, Repr

/-- What a job measures. -/
inductive JobKind
  | filesystem (job : FilesystemJob)
  | directory (job : DirectoryJob)
  deriving DecidableEq, Repr

namespace JobKind

/-- The category that does this measurement. -/
def category : JobKind → Category
  | filesystem _ => .filesystem
  | directory _ => .directory

/-- The path that is measured. -/
def path : JobKind → Path
  | filesystem job => job.mountPoint
  | directory job => job.path

end JobKind

/-- A monitored target with its schedule. -/
structure Target where
  name : String
  kind : JobKind
  interval : Duration
  timeout : Duration
  deriving DecidableEq, Repr

namespace Target

/-- The category of a target. -/
def category (t : Target) : Category := t.kind.category

/-- Whether a run may last longer than the time to the next tick. -/
def intervalShorter (t : Target) : Bool := t.interval < t.timeout

end Target

/-! ### Identity -/

/-- The identifier of a job. -/
structure JobId where
  text : String
  deriving DecidableEq, Repr

namespace JobId

/-- An identifier from the category, the name of the target, a clock reading
in nanoseconds and a running number. -/
def make (category : Category) (target : String) (clock : Int) (serial : UInt64) : JobId :=
  ⟨category.name ++ "-" ++ target ++ "-" ++ Text.showInt clock ++ "-" ++
    Text.showNat serial.toNat⟩

/-- The running number at the end of an identifier of the given category and
target. -/
def serial? (category : Category) (target : String) (id : JobId) : Option Nat :=
  let start := (category.name ++ "-" ++ target ++ "-").toList
  if start.isPrefixOf id.text.toList then
    match Text.pieces (· == '-') (id.text.toList.drop start.length) with
    | [clock, serial] => do
      let _ ← (Text.readUpTo (UInt64.size - 1) clock).toOption
      (Text.readUpTo (UInt64.size - 1) serial).toOption
    | _ => none
  else none

end JobId

/-! ### Jobs -/

/-- What cancels a job. -/
inductive StopSignal
  /-- A signal of its own, given or not. -/
  | own (given : Bool)
  /-- The shutdown of the program. -/
  | shutdown
  deriving DecidableEq, Repr

/-- Whether a signal is given, when shutdown has or has not been requested. -/
def StopSignal.given (shutdown : Bool) : StopSignal → Bool
  | .own given => given
  | .shutdown => shutdown

/-- A unit of scheduled work.  `cycle` is the span of the scheduling cycle that
made it. -/
structure Job where
  id : JobId
  target : String
  kind : JobKind
  timeout : Duration
  interval : Duration
  cycle : Option Nat
  stop : StopSignal
  deriving DecidableEq, Repr

namespace Job

/-- A job of a target. -/
def ofTarget (t : Target) (id : JobId) (cycle : Option Nat) (stop : StopSignal) : Job :=
  ⟨id, t.name, t.kind, t.timeout, t.interval, cycle, stop⟩

/-- The category of a job. -/
def category (j : Job) : Category := j.kind.category

/-- The path that a job measures. -/
def path (j : Job) : Path := j.kind.path

end Job

end DiskWatch
