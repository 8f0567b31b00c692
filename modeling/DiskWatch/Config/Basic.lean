/-
DiskWatch/Config/Basic.lean

The configuration and the schedule that follows from it.  A target without an
interval of its own takes the default one; without a timeout it gets half its
interval, at most five minutes.  Neither is ever below one second.

Main results: a derived timeout never exceeds the interval
(`derivedTimeout_le`), and interval and timeout are at least one second
(`minPeriod_le_interval`, `minPeriod_le_timeout`).
-/
import DiskWatch.Job
import DiskWatch.Queue
import DiskWatch.Retry

namespace DiskWatch

/-- The retry section. -/
structure RetrySection where
  maxAttempts : UInt32
  initialDelaySecs : UInt64
  deriving DecidableEq, Repr

/-- A configured file system. -/
structure FilesystemEntry where
  name : String
  mountPoint : Path
  device : String
  intervalSecs : Option UInt64
  timeoutSecs : Option UInt64
  deriving DecidableEq, Repr

/-- A configured directory. -/
structure DirectoryEntry where
  name : String
  path : Path
  levels : UInt32
  intervalSecs : Option UInt64
  timeoutSecs : Option UInt64
  deriving DecidableEq, Repr

/-- The configuration of the collector. -/
structure Config where
  defaultIntervalSecs : UInt64
  queueCapacity : UInt64
  logLevel : String
  endpoint : Option String
  serviceName : String
  retry : RetrySection
  filesystems : List FilesystemEntry
  directories : List DirectoryEntry
  deriving DecidableEq, Repr

namespace Config

/-! ### Defaults -/

/-- Three attempts, two seconds before the second one. -/
def standardRetry : RetrySection := ⟨3, 2⟩

/-- The configuration of an empty document. -/
def standard : Config :=
  { defaultIntervalSecs := 300
    queueCapacity := UInt64.ofNat defaultCapacity
    logLevel := "info"
    endpoint := none
    serviceName := "duwatch"
    retry := standardRetry
    filesystems := []
    directories := [] }

/-- The shortest interval or timeout. -/
def minPeriod : Duration := .ofSecs 1

/-- The longest timeout that is derived from an interval. -/
def maxDerivedTimeout : Duration := .ofSecs 300

/-! ### The schedule -/

/-- The interval of targets without one of their own. -/
def defaultInterval (c : Config) : Duration := max (.ofSecs c.defaultIntervalSecs) minPeriod

/-- The interval of a target. -/
def interval (c : Config) (secs : Option UInt64) : Duration :=
  max ((secs.map .ofSecs).getD c.defaultInterval) minPeriod

/-- The timeout that follows from an interval. -/
def derivedTimeout (interval : Duration) : Duration :=
  max (min interval.half maxDerivedTimeout) minPeriod

/-- The timeout of a target with the given interval. -/
def timeout (secs : Option UInt64) (interval : Duration) : Duration :=
  match secs with
  | some s => max (.ofSecs s) minPeriod
  | none => derivedTimeout interval

/-- The retry policy. -/
def retryPolicy (c : Config) : RetryPolicy :=
  .make c.retry.maxAttempts.toNat (.ofSecs c.retry.initialDelaySecs)

/-- The target of a configured file system. -/
def filesystemTarget (c : Config) (e : FilesystemEntry) : Target :=
  let interval := c.interval e.intervalSecs
  ⟨e.name, .filesystem ⟨e.mountPoint, e.device⟩, interval, timeout e.timeoutSecs interval⟩

/-- The target of a configured directory. -/
def directoryTarget (c : Config) (e : DirectoryEntry) : Target :=
  let interval := c.interval e.intervalSecs
  ⟨e.name, .directory ⟨e.path, e.levels⟩, interval, timeout e.timeoutSecs interval⟩

/-- Every target, file systems first, in the order of the document. -/
def targets (c : Config) : List Target :=
  c.filesystems.map c.filesystemTarget ++ c.directories.map c.directoryTarget

/-- The first target of a name. -/
def target? (c : Config) (name : String) : Option Target := c.targets.find? (·.name == name)

/-! ### Laws -/

theorem minPeriod_le_interval (c : Config) (secs : Option UInt64) :
    minPeriod ≤ c.interval secs := by
  rw [Duration.le_def, interval, Duration.nanos_max]
  exact Nat.le_max_right ..

theorem minPeriod_le_timeout (secs : Option UInt64) (d : Duration) :
    minPeriod ≤ timeout secs d := by
  rw [Duration.le_def]
  unfold timeout derivedTimeout
  split <;> rw [Duration.nanos_max] <;> exact Nat.le_max_right ..

/-- A derived timeout leaves room before the next tick. -/
theorem derivedTimeout_le {d : Duration} (h : minPeriod ≤ d) : derivedTimeout d ≤ d := by
  rw [Duration.le_def] at *
  simp only [derivedTimeout, Duration.nanos_max, Duration.nanos_min, Duration.nanos_half]
  omega

end Config

end DiskWatch
