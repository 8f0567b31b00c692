/-
DiskWatch/Collector.lean

The state that ticks, workers and watchdogs share, and the steps they take on
it.  A tick admits a job in one step, hands it over in a second one, and takes
the admission back in a third one if the queue refuses it; a worker takes a job
out, begins it and settles it; a watchdog looks whether its job is still under
way and closes the cycle.  Each of these steps is a function of its own, so any
interleaving of them is a sequence of such functions, and `tick` is the
sequence that belongs to one tick.

Counters, log and metrics are kept along with every step.  What a step tells
the observers goes through `observe`, which leaves the rest of the state alone.
-/
import DiskWatch.Clock
import DiskWatch.Measurement
import DiskWatch.Queue

namespace DiskWatch

/-- A job that was handed over and whose watchdog has not closed yet. -/
structure Dispatch where
  id : JobId
  category : Category
  target : String
  deriving DecidableEq, Repr

/-- The record of a job that is handed over. -/
def Dispatch.ofJob (job : Job) : Dispatch := ⟨job.id, job.category, job.target⟩

/-- The shared state. -/
structure Collector where
  ledgers : PerCategory Ledger
  queues : PerCategory Queue
  stats : Stats
  inFlight : List Dispatch
  /-- The number of job identifiers drawn. -/
  drawn : UInt64
  /-- Whether shutdown was requested. -/
  shutdown : Bool
  telemetry : Telemetry

namespace Collector

/-- The state at the start, with the given queues. -/
def start (queues : PerCategory Queue) : Collector :=
  ⟨.both .empty, queues, .zero, [], 0, false, .empty⟩

/-! ### Small changes -/

/-- Changes what was recorded. -/
def observe (s : Collector) (f : Telemetry → Telemetry) : Collector :=
  { s with telemetry := f s.telemetry }

/-- Records an event. -/
def log (s : Collector) (e : Event) : Collector := s.observe (·.log e)

/-- Changes the ledger of a category. -/
def withLedger (s : Collector) (c : Category) (f : Ledger → Ledger) : Collector :=
  { s with ledgers := s.ledgers.update c f }

/-- Opens a span. -/
def openSpan (s : Collector) (parent : Option Nat) (kind : SpanKind) : Nat × Collector :=
  let (span, telemetry) := s.telemetry.openSpan parent kind
  (span, { s with telemetry := telemetry })

/-! ### Registration -/

/-- Publishes the schedule of a target. -/
def publishSchedule (t : Target) (o : Telemetry) : Telemetry :=
  let o := (o.record (.interval t.category t.name) (.real t.interval.toSeconds)).record
    (.timeout t.category t.name) (.real t.timeout.toSeconds)
  if t.intervalShorter then o.log (.intervalShort t.category t.name t.interval t.timeout) else o

/-- Registers a target and publishes its schedule. -/
def register (s : Collector) (t : Target) : Collector :=
  (s.withLedger t.category (·.register t.category t.name)).observe (publishSchedule t)

/-- Registers targets one after another. -/
def registerAll (s : Collector) (ts : List Target) : Collector :=
  (ts.foldl register s).log (.schedulerStarted ts.length)

/-! ### The steps of a tick -/

/-- A job for a tick, in a cycle of its own.  The clock reading goes into the
identifier. -/
def draw (s : Collector) (t : Target) (clock : Int) : Job × Collector :=
  let id := JobId.make t.category t.name clock s.drawn
  let (cycle, s) := s.openSpan none (.cycle t.category t.name id)
  (.ofTarget t id (some cycle) .shutdown, { s with drawn := s.drawn + 1 })

/-- Records an outcome on a cycle. -/
def concludeCycle (s : Collector) (cycle : Option Nat) (outcome : Outcome) (duration : Duration) :
    Collector :=
  s.observe fun o => match cycle with
    | some cycle => o.conclude cycle outcome duration
    | none => o

/-- Looks whether the target is idle, and marks it with the job if so. -/
def reserve (s : Collector) (job : Job) : Admission × Collector :=
  let c := job.category
  let (admission, ledger) := (s.ledgers.get c).reserve job.target job.id
  let s := { s with ledgers := s.ledgers.set c ledger }
  (admission, s.observe (·.addSpan job.cycle (.admission c job.target admission)))

/-- Closes the cycle of a tick whose target is busy. -/
def skip (s : Collector) (job : Job) : Collector :=
  let s := { s with stats := { s.stats with skipped := s.stats.skipped + 1 } }
  let s := s.observe fun o => (o.count (.skipped job.category job.target)).log .tickSkipped
  s.concludeCycle job.cycle .skipped .zero

/-- Closes the cycle of a tick whose target is not registered. -/
def refuse (s : Collector) (job : Job) : Collector :=
  (s.log (.unregisteredTick job.category job.target)).concludeCycle job.cycle .unregistered .zero

/-- The operation of a queue that an offer shows as. -/
def operationOf : Offer → QueueOperation
  | .accepted => .enqueue
  | .full => .enqueueFull
  | .closed => .enqueueClosed

/-- The error of a refused offer. -/
def offerError? (c : Category) (q : Queue) : Offer → Option Error
  | .accepted => none
  | .full => some (.queueFull c q.capacity)
  | .closed => some (.queueClosed c)

/-- Hands a job over to the queue of a category. -/
def handOver (s : Collector) (c : Category) (job : Job) : Option Error × Collector :=
  let queue := s.queues.get c
  let (offer, after) := queue.offer job
  let s := { s with queues := s.queues.set c after }
  (offerError? c queue offer, s.observe (·.count (.queueOperation c (operationOf offer))))

/-- Hands an admitted job over, under a span of its own. -/
def enqueue (s : Collector) (job : Job) : Option Error × Collector :=
  let c := job.category
  let s := s.observe (·.addSpan job.cycle (.enqueue job.id (s.queues.get c).size))
  s.handOver c job

/-- Takes back the admission of a job that the queue refused. -/
def withdraw (s : Collector) (job : Job) (e : Error) : Collector :=
  let c := job.category
  let s := s.withLedger c fun l => (l.release job.target job.id).2
  let s := { s with stats := { s.stats with enqueueFailed := s.stats.enqueueFailed + 1 } }
  let s := s.observe fun o =>
    (o.count (.enqueueFailed c job.target e.kind)).log (.enqueueFailed e)
  s.concludeCycle job.cycle .enqueueFailed .zero

/-- Counts a job that the queue took in, and remembers it for its watchdog. -/
def dispatch (s : Collector) (job : Job) : Collector :=
  { s with
    stats := { s.stats with enqueued := s.stats.enqueued + 1 }
    inFlight := s.inFlight.filter (·.id != job.id) ++ [.ofJob job] }

/-! ### A whole tick -/

/-- How a tick ended. -/
inductive TickOutcome
  | enqueued (job : Job)
  | skipped
  | enqueueFailed
  | unregistered
  deriving DecidableEq, Repr

/-- One tick of a target.  The job of an `enqueued` tick is to get a watchdog. -/
def tick (s : Collector) (t : Target) (clock : Int) : TickOutcome × Collector :=
  let (job, s) := s.draw t clock
  match s.reserve job with
  | (.unregistered, s) => (.unregistered, s.refuse job)
  | (.alreadyRunning, s) => (.skipped, s.skip job)
  | (.admitted, s) =>
    match s.enqueue job with
    | (some e, s) => (.enqueueFailed, s.withdraw job e)
    | (none, s) => (.enqueued job, s.dispatch job)

/-! ### The steps of a worker -/

/-- Takes the next job out of the queue of a category. -/
def takeJob (s : Collector) (c : Category) : Delivery × Collector :=
  let (delivery, queue) := (s.queues.get c).take
  let s := { s with queues := s.queues.set c queue }
  (delivery, s.observe fun o => match delivery with
    | .job _ => o.count (.queueOperation c .dequeue)
    | _ => o)

/-- The worker of a category ends, and its end of the queue goes with it. -/
def stopWorker (s : Collector) (c : Category) : Collector :=
  { s.log (.workerStopped c) with queues := s.queues.update c Queue.dropConsumer }

/-- Records that a job is being processed. -/
def setRunning (s : Collector) (job : Job) (now : Instant) : Collector :=
  let c := job.category
  let (found, ledger) := (s.ledgers.get c).start job now
  let s := { s with ledgers := s.ledgers.set c ledger }
  s.observe fun o => if found then o else o.log (.unregisteredRun c job.target job.id)

/-- Records that a job is not being processed any more. -/
def clearRunning (s : Collector) (c : Category) (id : JobId) (now : Instant) (d : Duration) :
    Bool × Collector :=
  let (found, ledger) := (s.ledgers.get c).clear id now d
  (found, { s with ledgers := s.ledgers.set c ledger })

/-- Begins a job: the span of its processing. -/
def begin (s : Collector) (job : Job) (now : Instant) : Nat × Collector :=
  let c := job.category
  let (span, s) := s.openSpan job.cycle (.process c job.target job.id job.path)
  let s := (s.log (.transition "queued" "running")).setRunning job now
  (span, s.observe (·.record (.active c) (.whole 1)))

/-- A job is slow once it takes more than half the time between two ticks. -/
def isSlow (duration interval : Duration) : Bool := interval.half < duration

/-- Publishes the points of a successful measurement, if it is one of what the job
measures. -/
def publish (job : Job) (t : Telemetry) (m : Measurement) : Telemetry :=
  match job.kind, m with
  | .filesystem fs, .filesystem usage =>
    ((t.record (.filesystemSize job.target fs.mountPoint.text fs.device)
        (.whole usage.size.toNat)).record
      (.filesystemAvailable job.target fs.mountPoint.text fs.device)
        (.whole usage.available.toNat)).record
      (.filesystemRatio job.target fs.mountPoint.text fs.device) (.real usage.ratio)
  | .directory _, .directory samples =>
    samples.foldl (fun t sample =>
      t.record (.directorySize job.target sample.path.text sample.level)
        (.whole sample.bytes.toNat)) t
  | _, _ => t.log (.unpublished job.id)

/-- The outcome of processing. -/
def outcomeOf : Except Error Measurement → Outcome
  | .ok _ => .success
  | .error _ => .failure

/-- Publishes how a job ended, and when. -/
def report (job : Job) (now : Instant) (result : Except Error Measurement) (duration : Duration)
    (t : Telemetry) : Telemetry :=
  let t := match result with
    | .ok m => (publish job t m).log (.collected duration)
    | .error e => t.log (.collectionFailed e duration)
  let failure := match result with
    | .ok _ => none
    | .error e => some e.kind
  let t := t.count (.completed job.category job.target failure)
  let t := t.record (.jobDuration job.category job.target) (.real duration.toSeconds)
  let t := t.record (.lastCollection job.category job.target)
    (.whole (now / nanosPerSecond))
  if isSlow duration job.interval then t.log (.slowJob duration job.interval) else t

/-- Settles a job whose measurement has ended. -/
def settle (s : Collector) (job : Job) (span : Nat) (now : Instant)
    (result : Except Error Measurement) (duration : Duration) : Collector :=
  let c := job.category
  let s := (s.clearRunning c job.id now duration).2
  s.observe fun t =>
    let t := t.record (.active c) (.whole 0)
    let t := t.log (.transition "running" (outcomeOf result).label)
    let t := t.conclude span (outcomeOf result) duration
    report job now result duration t

/-! ### The steps of a watchdog -/

/-- How a watchdog closed its cycle. -/
inductive Verdict
  | completed
  | timedOut
  | shutdown
  deriving DecidableEq, Repr

/-- The verdict as the outcome of a cycle. -/
def Verdict.outcome : Verdict → Outcome
  | .completed => .completed
  | .timedOut => .timedOut
  | .shutdown => .shutdown

/-- The hand-over that a watchdog watches. -/
def dispatch? (s : Collector) (id : JobId) : Option Dispatch := s.inFlight.find? (·.id == id)

/-- Whether this very job is still under way. -/
def pending (s : Collector) (id : JobId) : Bool :=
  match s.dispatch? id with
  | none => false
  | some d => (s.ledgers.get d.category).shows d.target id

/-- Counts a verdict. -/
def Verdict.count (stats : Stats) : Verdict → Stats
  | .completed => { stats with watchdogCompleted := stats.watchdogCompleted + 1 }
  | .timedOut => { stats with watchdogTimeouts := stats.watchdogTimeouts + 1 }
  | .shutdown => stats

/-- Tells that a watchdog gave up on a job, whose hand-over may be known. -/
def publishTimeout (record : Option Dispatch) (id : JobId) (elapsed : Duration) (o : Telemetry) :
    Telemetry :=
  let o := match record with
    | some d => o.count (.watchdogTimeout d.category d.target)
    | none => o
  o.log (.watchdogGaveUp (.notSeenComplete id.text elapsed))

/-- Closes the cycle of a job, some time after its watchdog began. -/
def closeWatch (s : Collector) (id : JobId) (cycle : Option Nat) (v : Verdict)
    (elapsed : Duration) : Collector :=
  let record := s.dispatch? id
  let s := { s with inFlight := s.inFlight.filter (·.id != id), stats := v.count s.stats }
  let s := s.observe fun o =>
    if v = .timedOut then publishTimeout record id elapsed o else o
  s.concludeCycle cycle v.outcome elapsed

/-! ### Sampling -/

/-- Records the depth that a queue was found to have, in the ledger and the gauge. -/
def recordDepth (s : Collector) (c : Category) (depth : Nat) : Collector :=
  (s.withLedger c (·.setDepth depth)).observe (·.record (.queueDepth c) (.whole depth))

/-- Copies the depth of a queue. -/
def sampleDepth (s : Collector) (c : Category) : Collector :=
  s.recordDepth c (s.queues.get c).size

/-- Copies the depth of every queue. -/
def sampleDepths (s : Collector) : Collector := Category.all.foldl sampleDepth s

/-- Publishes how many tasks there are; nobody ever waits for the directory lock. -/
def sampleTasks (s : Collector) (alive : Nat) : Collector :=
  s.observe fun o => (o.record .aliveTasks (.whole alive)).record .lockWait (.real 0.0)

/-- Records a request for shutdown. -/
def requestShutdown (s : Collector) : Collector := { s with shutdown := true }

end Collector

end DiskWatch
