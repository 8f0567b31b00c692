/-
DiskWatch/World.lean

The running program: tasks that take turns on one thread, and a clock that
moves only when every task waits.  A task is run one move at a time.  It goes
on until it has to wait: for an instant, for a job in a queue, or for a look at
a path.  Tasks that are ready run in the order in which they became ready.
When none is ready the looks at paths end, and when there is none of those
either, the clock moves to the next alarm.

`step?` makes one move and says which world comes after it; everything else
here is a repetition of it.
-/
import DiskWatch.Alone
import DiskWatch.Watchdog

namespace DiskWatch

/-! ### Tasks -/

/-- Where a measurement that goes on stands. -/
inductive Phase
  | going (rest : Activity (Except Error Measurement))
  | calling (c : Call) (next : Except Error String → Activity (Except Error Measurement))
  | pausing (wake : Instant) (next : Bool → Activity (Except Error Measurement))

/-- A job that is being processed. -/
structure Run where
  job : Job
  span : Nat
  phase : Phase

/-- A task.  One that has an instant `due` or a `watch` has begun. -/
inductive Task
  | worker (category : Category) (begun : Bool) (run : Option Run)
  /-- One job, processed for itself. -/
  | errand (run : Run)
  | timer (target : Target) (due : Option Instant)
  | watchdog (id : JobId) (cycle : Option Nat) (timeout : Duration) (watch : Option Watch)
  | depthSampler (due : Option Instant)
  | taskSampler (due : Option Instant)

/-- What a task waits for. -/
inductive Wait
  /-- An instant; a shutdown ends the wait if it can be `cut`. -/
  | alarm (t : Instant) (cut : Bool)
  | queue (c : Category)
  | look
  deriving DecidableEq, Repr

/-- What a task does after a move. -/
inductive Move
  | goOn (task : Task)
  | wait (task : Task) (w : Wait)
  | over

/-- A task and what it waits for; a task that waits for nothing is ready. -/
structure Slot where
  number : Nat
  task : Task
  wait : Option Wait

/-! ### The world -/

/-- What stays the same while the program runs: its routine, and the answers of
the outside world. -/
structure Settings extends Routine where
  surroundings : Surroundings
  /-- The time that the processing of a job takes on a stopwatch. -/
  stopwatch : Job → Duration
  /-- Which comes first when a pause ends as a cancellation comes. -/
  cancelFirst : Bool

/-- A call with the instant at which it was made and the jobs that were being
processed then. -/
structure SeenCall where
  instant : Instant
  call : Call
  running : PerCategory (Option RunningJob)

/-- What happened to a processed job. -/
structure Report where
  job : Job
  duration : Duration
  result : Except Error Measurement

/-- The running program. -/
structure World where
  settings : Settings
  now : Instant
  collector : Collector
  slots : List Slot
  spawned : Nat
  ready : List Nat
  calls : List SeenCall
  /-- The calls that have ended, the latest first. -/
  ended : List Call
  reports : List Report
  timersEnded : Nat

namespace World

/-- A world without tasks. -/
def start (settings : Settings) (collector : Collector) : World :=
  ⟨settings, 0, collector, [], 0, [], [], [], [], 0⟩

/-- Changes the shared state. -/
def onCollector (w : World) (f : Collector → Collector) : World :=
  { w with collector := f w.collector }

/-- Adds a task, which is ready after all that are ready now. -/
def spawn (w : World) (task : Task) : World :=
  { w with
    slots := w.slots ++ [⟨w.spawned, task, none⟩]
    spawned := w.spawned + 1
    ready := w.ready ++ [w.spawned] }

/-- Makes the waiting tasks of class `p` ready. -/
def wakeWhere (w : World) (p : Wait → Bool) : World :=
  { w with
    slots := w.slots.map fun s => if s.wait.any p then { s with wait := none } else s
    ready := w.ready ++ (w.slots.filter fun s => s.wait.any p).map (·.number) }

/-- Whether a wait is for a job in the queue of a category. -/
def Wait.isQueue (c : Category) : Wait → Bool
  | .queue d => c = d
  | _ => false

/-- Whether a shutdown ends a wait. -/
def Wait.isCut : Wait → Bool
  | .alarm _ cut => cut
  | .queue _ => true
  | .look => false

/-- Requests shutdown, which ends every wait that it can end. -/
def shutdown (w : World) : World := (w.onCollector Collector.requestShutdown).wakeWhere Wait.isCut

/-! ### Ticks -/

/-- One tick of a target.  A job that was taken in wakes the worker and then
gets a watchdog. -/
def tick (w : World) (t : Target) : Collector.TickOutcome × World :=
  let (outcome, collector) := w.collector.tick t w.now
  let w := { w with collector := collector }
  match outcome with
  | .enqueued job =>
    (outcome, (w.wakeWhere (Wait.isQueue job.category)).spawn
      (.watchdog job.id job.cycle job.timeout none))
  | _ => (outcome, w)

/-! ### Processing -/

/-- Begins to process a job. -/
def beginRun (w : World) (policy : RetryPolicy) (job : Job) : Run × World :=
  let (span, collector) := w.collector.begin job w.now
  let rest := Measurement.take policy job.kind job.timeout
  (⟨job, span, .going rest⟩, { w with collector := collector })

/-- What becomes of a job that is being processed. -/
inductive Progress
  | goOn (run : Run)
  | wait (run : Run) (w : Wait)
  | ended (result : Except Error Measurement)

/-- Notes a call that starts now. -/
def seeCall (w : World) (c : Call) : World :=
  let running : PerCategory (Option RunningJob) :=
    ⟨w.collector.ledgers.filesystem.running, w.collector.ledgers.directory.running⟩
  { w with calls := w.calls ++ [⟨w.now, c, running⟩] }

/-- The answer to a call that ends now. -/
def answer (w : World) (c : Call) : Except Error String × World :=
  (w.settings.surroundings.result w.ended c, { w with ended := c :: w.ended })

/-- The answer to a pause that would end at `wake`. -/
def pauseAnswer (w : World) (job : Job) (wake : Instant) : Bool :=
  job.stop.given w.collector.shutdown && (w.now < wake || w.settings.cancelFirst)

/-- One move of a job that is being processed. -/
def moveRun (w : World) (r : Run) : Progress × World :=
  let going (rest : Activity (Except Error Measurement)) : Progress :=
    .goOn { r with phase := .going rest }
  match r.phase with
  | .going (.done result) => (.ended result, w)
  | .going (.look path next) =>
    (.wait { r with phase := .going (next (w.settings.surroundings.look path)) } .look, w)
  | .going (.note n next) =>
    (going next, w.onCollector (·.observe fun t => Activity.keep (some r.span) t n))
  | .going (.call c next) =>
    let wake := w.settings.clock.wake w.now (w.settings.surroundings.delay c)
    let w := w.seeCall c
    if wake = w.now then
      let (a, w) := w.answer c
      (going (next a), w)
    else (.wait { r with phase := .calling c next } (.alarm wake false), w)
  | .calling c next =>
    let (a, w) := w.answer c
    (going (next a), w)
  | .going (.pause d next) =>
    let wake := w.settings.clock.wake w.now d
    if wake = w.now || r.job.stop.given w.collector.shutdown then
      (going (next (w.pauseAnswer r.job wake)), w)
    else
      (.wait { r with phase := .pausing wake next } (.alarm wake (r.job.stop = .shutdown)), w)
  | .pausing wake next => (going (next (w.pauseAnswer r.job wake)), w)

/-- Settles a job whose measurement has ended. -/
def endRun (w : World) (r : Run) (result : Except Error Measurement) : World :=
  let duration := w.settings.stopwatch r.job
  { w.onCollector (·.settle r.job r.span w.now result duration) with
    reports := w.reports ++ [⟨r.job, duration, result⟩] }

/-! ### Moves of tasks -/

/-- One move of a worker. -/
def moveWorker (w : World) (c : Category) (begun : Bool) (run : Option Run) : Move × World :=
  match run with
  | some r =>
    match w.moveRun r with
    | (.goOn r, w) => (.goOn (.worker c true (some r)), w)
    | (.wait r wait, w) => (.wait (.worker c true (some r)) wait, w)
    | (.ended result, w) => (.goOn (.worker c true none), w.endRun r result)
  | none =>
    if !begun then (.goOn (.worker c true none), w.onCollector (·.log (.workerStarted c)))
    else if w.collector.shutdown then (.over, w.onCollector (·.stopWorker c))
    else
      let (delivery, collector) := w.collector.takeJob c
      let w := { w with collector := collector }
      match delivery with
      | .job job =>
        let (r, w) := w.beginRun w.settings.policy job
        (.goOn (.worker c true (some r)), w)
      | .pending => (.wait (.worker c true none) (.queue c), w)
      | .finished | .dropped => (.over, w.onCollector (·.stopWorker c))

/-- One move of an errand. -/
def moveErrand (w : World) (r : Run) : Move × World :=
  match w.moveRun r with
  | (.goOn r, w) => (.goOn (.errand r), w)
  | (.wait r wait, w) => (.wait (.errand r) wait, w)
  | (.ended result, w) => (.over, w.endRun r result)

/-- Whether a beat that is due at an instant comes now. -/
def beatComes (w : World) (due : Instant) : Bool := w.settings.clock.alarm due ≤ w.now

/-- The wait for a beat, which a shutdown ends. -/
def beatWait (w : World) (due : Instant) : Wait := .alarm (w.settings.clock.alarm due) true

/-- A timer has ended. -/
def endTimer (w : World) : World := { w with timersEnded := w.timersEnded + 1 }

/-- One move of a timer.  A timer without an interval ends at once, and one without a next
beat ends where it would tick. -/
def moveTimer (w : World) (t : Target) (due : Option Instant) : Move × World :=
  match due with
  | none => if t.interval.nanos = 0 then (.over, w.endTimer) else (.goOn (.timer t (some w.now)), w)
  | some due =>
    if w.collector.shutdown then (.over, w.endTimer)
    else if w.beatComes due then
      match w.settings.clock.nextBeat? .delay due w.now t.interval with
      | none => (.over, w.endTimer)
      | some next => (.goOn (.timer t (some next)), (w.tick t).2)
    else (.wait (.timer t (some due)) (w.beatWait due), w)

/-- One move of a watchdog.  One that cannot begin or go on ends at once and leaves its
job in flight. -/
def moveWatchdog (w : World) (id : JobId) (cycle : Option Nat) (timeout : Duration)
    (watch : Option Watch) : Move × World :=
  match watch with
  | none =>
    match Watch.begin? w.settings.toRoutine timeout w.now with
    | none => (.over, w)
    | some watch => (.goOn (.watchdog id cycle timeout (some watch)), w)
  | some watch =>
    match watch.glance w.settings.toRoutine w.collector id w.now with
    | .close v => (.over, w.onCollector (·.closeWatch id cycle v (Clock.since watch.began w.now)))
    | .again due => (.goOn (.watchdog id cycle timeout (some { watch with due := due })), w)
    | .sleep => (.wait (.watchdog id cycle timeout (some watch)) (w.beatWait watch.due), w)
    | .fail => (.over, w)

/-- How often queue depths are copied. -/
def depthInterval : Duration := .ofSecs 5

/-- How often the tasks are counted. -/
def taskInterval : Duration := .ofSecs 15

/-- One move of a task that takes a sample at every beat and leaves out those that it
has missed. -/
def moveSampler (w : World) (due : Option Instant) (interval : Duration)
    (task : Option Instant → Task) (sample : Collector → Collector) : Move × World :=
  match due with
  | none => (.goOn (task (some w.now)), w)
  | some due =>
    if w.collector.shutdown then (.over, w)
    else if w.beatComes due then
      match w.settings.clock.nextBeat? .skip due w.now interval with
      | none => (.over, w)
      | some next => (.goOn (task (some next)), w.onCollector sample)
    else (.wait (task (some due)) (w.beatWait due), w)

/-- One move of a task. -/
def move (w : World) : Task → Move × World
  | .worker c begun run => w.moveWorker c begun run
  | .errand run => w.moveErrand run
  | .timer t due => w.moveTimer t due
  | .watchdog id cycle timeout watch => w.moveWatchdog id cycle timeout watch
  | .depthSampler due => w.moveSampler due depthInterval .depthSampler Collector.sampleDepths
  | .taskSampler due =>
    w.moveSampler due taskInterval .taskSampler fun s => s.sampleTasks w.slots.length

/-! ### Steps -/

/-- Changes the slot of a task. -/
def setSlot (w : World) (number : Nat) (task : Task) (wait : Option Wait) : World :=
  { w with slots := w.slots.map fun s =>
      if s.number = number then { s with task := task, wait := wait } else s }

/-- Runs one move of the given ready task. -/
def runMove (w : World) (number : Nat) : World :=
  match w.slots.find? (·.number == number) with
  | none => w
  | some slot =>
    match w.move slot.task with
    | (.goOn task, w) => { w.setSlot number task none with ready := number :: w.ready }
    | (.wait task wait, w) => w.setSlot number task (some wait)
    | (.over, w) => { w with slots := w.slots.filter (·.number != number) }

/-- The instant of the next alarm. -/
def nextAlarm? (w : World) : Option Instant :=
  w.slots.foldl (fun soonest s =>
    match s.wait, soonest with
    | some (.alarm t _), none => some t
    | some (.alarm t _), some u => some (min t u)
    | _, _ => soonest) none

/-- Whether a wait is for an instant that has come. -/
def Wait.isDue (now : Instant) : Wait → Bool
  | .alarm t _ => t ≤ now
  | _ => false

/-- One step: a move of the first ready task; without one, the end of the looks
at paths; without one, the next alarm, unless it lies behind the horizon. -/
def step? (horizon : Option Instant) (w : World) : Option World :=
  match w.ready with
  | number :: rest => some ({ w with ready := rest }.runMove number)
  | [] =>
    if w.slots.any (·.wait == some .look) then some (w.wakeWhere (· == .look))
    else match w.nextAlarm? with
      | none => none
      | some t =>
        if horizon.all (t ≤ ·) then
          some ({ w with now := max w.now t }.wakeWhere (Wait.isDue t))
        else none

/-- Steps while `more` holds, as many as `fuel` allows. -/
def runWhile (more : World → Bool) (horizon : Option Instant) : Nat → World → World
  | 0, w => w
  | fuel + 1, w =>
    if more w then
      match w.step? horizon with
      | some next => runWhile more horizon fuel next
      | none => w
    else w

/-- The number of steps after which a run is given up. -/
def patience : Nat := 1_000_000_000_000_000

/-- Lets the tasks run for some time. -/
def advance (w : World) (d : Duration) : World :=
  let horizon := w.now + d.nanos
  { runWhile (fun _ => true) (some horizon) patience w with now := horizon }

/-- Lets every task run that is ready, without any time passing. -/
def settleReady (w : World) : World :=
  runWhile (fun w => !w.ready.isEmpty) (some w.now) patience w

/-- Lets the tasks run until none of class `p` is left. -/
def runUntilNone (p : Task → Bool) (w : World) : World :=
  runWhile (fun w => w.slots.any fun s => p s.task) none patience w

/-- Whether a task is an errand. -/
def isErrand : Task → Bool
  | .errand _ => true
  | _ => false

/-- Whether a task is a worker. -/
def isWorker : Task → Bool
  | .worker .. => true
  | _ => false

/-- Whether a task is one that the daemon waits for at its end.  It does not
wait for watchdogs. -/
def isAwaited : Task → Bool
  | .watchdog .. => false
  | _ => true

/-- Processes a job to its end.  The tasks that are ready run before it. -/
def process (w : World) (policy : RetryPolicy) (job : Job) : World :=
  let w := w.settleReady
  let (run, w) := w.beginRun policy job
  runUntilNone isErrand (w.spawn (.errand run))

/-- Registers targets and starts their timers. -/
def startTimers (w : World) (ts : List Target) : World :=
  ts.foldl (fun w t => w.spawn (.timer t none)) (w.onCollector (·.registerAll ts))

end World

end DiskWatch
