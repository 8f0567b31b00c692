/-
DiskWatch/Telemetry/Metric.lean

Metrics: counters, which add up, and gauges, which hold their last value.  A
data point is told apart by what it measures and by its attributes; both are in
the name of the point (`Counter`, `Gauge`).

Main results: counting adds one to the sum of one point and leaves the others
alone (`counted_count`, `counted_count_of_ne`), and likewise for gauges.
-/
import DiskWatch.Error

namespace DiskWatch

/-! ### Points -/

/-- What a queue does with a job that is handed over or taken out. -/
inductive QueueOperation
  | enqueue
  | enqueueFull
  | enqueueClosed
  | dequeue
  deriving DecidableEq, Repr

/-- The operation as an attribute. -/
def QueueOperation.label : QueueOperation → String
  | .enqueue => "enqueue"
  | .enqueueFull => "enqueue_full"
  | .enqueueClosed => "enqueue_closed"
  | .dequeue => "dequeue"

/-- A point of a counter. -/
inductive Counter
  /-- Finished jobs; the kind of the error is there for failures. -/
  | completed (category : Category) (target : String) (failure : Option String)
  | skipped (category : Category) (target : String)
  | enqueueFailed (category : Category) (target : String) (reason : String)
  | watchdogTimeout (category : Category) (target : String)
  | queueOperation (queue : Category) (operation : QueueOperation)
  deriving DecidableEq, Repr

/-- A point of a gauge. -/
inductive Gauge
  | filesystemSize (target mountPoint device : String)
  | filesystemAvailable (target mountPoint device : String)
  | filesystemRatio (target mountPoint device : String)
  | directorySize (target path : String) (level : Nat)
  | jobDuration (category : Category) (target : String)
  | lastCollection (category : Category) (target : String)
  | active (category : Category)
  | interval (category : Category) (target : String)
  | timeout (category : Category) (target : String)
  | queueDepth (queue : Category)
  | aliveTasks
  | lockWait
  deriving DecidableEq, Repr

/-- The value of a gauge. -/
inductive Reading
  | whole (n : Nat)
  | real (x : Float)

namespace Counter

/-- The instrument that a point belongs to. -/
def instrument : Counter → String
  | completed .. => "duwatch.job.completed"
  | skipped .. => "duwatch.scheduler.skipped"
  | enqueueFailed .. => "duwatch.scheduler.enqueue_failed"
  | watchdogTimeout .. => "duwatch.scheduler.watchdog_timeouts"
  | queueOperation .. => "duwatch.queue.operations"

/-- The attributes of a point. -/
def attributes : Counter → List (String × String)
  | completed category target failure =>
    [("category", category.name), ("target", target),
      ("result", if failure.isSome then "failure" else "success"),
      ("error_kind", failure.getD "none")]
  | skipped category target =>
    [("category", category.name), ("target", target), ("reason", "previous_job_running")]
  | enqueueFailed category target reason =>
    [("category", category.name), ("target", target), ("reason", reason)]
  | watchdogTimeout category target => [("category", category.name), ("target", target)]
  | queueOperation queue operation => [("queue", queue.name), ("operation", operation.label)]

end Counter

namespace Gauge

/-- The instrument that a point belongs to. -/
def instrument : Gauge → String
  | filesystemSize .. => "duwatch.filesystem.size_bytes"
  | filesystemAvailable .. => "duwatch.filesystem.available_bytes"
  | filesystemRatio .. => "duwatch.filesystem.used_ratio"
  | directorySize .. => "duwatch.directory.size_bytes"
  | jobDuration .. => "duwatch.job.duration_seconds"
  | lastCollection .. => "duwatch.job.last_collection_timestamp"
  | active _ => "duwatch.collection.active"
  | interval .. => "duwatch.target.interval_seconds"
  | timeout .. => "duwatch.target.timeout_seconds"
  | queueDepth _ => "duwatch.queue.depth"
  | aliveTasks => "duwatch.runtime.alive_tasks"
  | lockWait => "duwatch.directory.lock_wait_seconds"

/-- The attributes of a point. -/
def attributes : Gauge → List (String × String)
  | filesystemSize target mountPoint device | filesystemAvailable target mountPoint device
  | filesystemRatio target mountPoint device =>
    [("target", target), ("mount_point", mountPoint), ("device", device)]
  | directorySize target path level =>
    [("target", target), ("path", path), ("level", Text.showNat level)]
  | jobDuration category target | lastCollection category target | interval category target
  | timeout category target => [("category", category.name), ("target", target)]
  | active category => [("category", category.name)]
  | queueDepth queue => [("queue", queue.name)]
  | aliveTasks | lockWait => []

end Gauge

/-! ### The store of points -/

/-- The data points, in the order in which they first came up. -/
structure Metrics where
  counters : List (Counter × Nat)
  gauges : List (Gauge × Reading)

namespace Metrics

/-- No points. -/
def empty : Metrics := ⟨[], []⟩

/-- Changes the value of a key, starting from `start` if it has none. -/
def change {κ α : Type} [DecidableEq κ] (key : κ) (start : α) (f : α → α) :
    List (κ × α) → List (κ × α)
  | [] => [(key, f start)]
  | (k, a) :: rest => if k = key then (k, f a) :: rest else (k, a) :: change key start f rest

theorem lookup_change {κ α : Type} [DecidableEq κ] (key : κ) (start : α) (f : α → α)
    (es : List (κ × α)) :
    (change key start f es).lookup key = some (f ((es.lookup key).getD start)) := by
  induction es with
  | nil => simp [change]
  | cons e es ih =>
    obtain ⟨k, a⟩ := e
    by_cases h : k = key
    · simp [change, h]
    · have hb : (key == k) = false := by simpa using Ne.symm h
      simp only [change, if_neg h, List.lookup_cons, hb, ih]

theorem lookup_change_of_ne {κ α : Type} [DecidableEq κ] {key other : κ} (start : α) (f : α → α)
    (es : List (κ × α)) (h : other ≠ key) :
    (change key start f es).lookup other = es.lookup other := by
  induction es with
  | nil =>
    have hb : (other == key) = false := by simpa using h
    simp [change, List.lookup_cons, hb]
  | cons e es ih =>
    obtain ⟨k, a⟩ := e
    by_cases hk : k = key
    · have hb : (other == k) = false := by simpa [hk] using h
      simp [change, hk, List.lookup_cons, hk ▸ hb]
    · simp only [change, if_neg hk, List.lookup_cons, ih]

/-- The sum of a counter's point. -/
def counted (m : Metrics) (key : Counter) : Nat := (m.counters.lookup key).getD 0

/-- The last value of a gauge's point. -/
def reading? (m : Metrics) (key : Gauge) : Option Reading := m.gauges.lookup key

/-- Adds one to a counter's point. -/
def count (m : Metrics) (key : Counter) : Metrics :=
  { m with counters := change key 0 (· + 1) m.counters }

/-- Sets a gauge's point. -/
def record (m : Metrics) (key : Gauge) (value : Reading) : Metrics :=
  { m with gauges := change key value (fun _ => value) m.gauges }

@[simp] theorem counted_count (m : Metrics) (key : Counter) :
    (m.count key).counted key = m.counted key + 1 := by
  simp [counted, count, lookup_change]

@[simp] theorem counted_count_of_ne (m : Metrics) {key other : Counter} (h : other ≠ key) :
    (m.count key).counted other = m.counted other := by
  simp [counted, count, lookup_change_of_ne _ _ _ h]

@[simp] theorem reading?_record (m : Metrics) (key : Gauge) (value : Reading) :
    (m.record key value).reading? key = some value := by
  simp [reading?, record, lookup_change]

@[simp] theorem reading?_record_of_ne (m : Metrics) {key other : Gauge} (value : Reading)
    (h : other ≠ key) : (m.record key value).reading? other = m.reading? other := by
  simp [reading?, record, lookup_change_of_ne _ _ _ h]

end Metrics

end DiskWatch
