/-
DiskWatch/Daemon.lean

The collector as it runs day and night: one worker for each category, a timer
for each target, and the tasks that take samples.  After a request for shutdown
it waits until all of these have ended, and tells what it has done.  Watchdogs
are not waited for.
-/
import DiskWatch.Config.Basic
import DiskWatch.World

namespace DiskWatch.Daemon

/-- How often a watchdog looks whether its job is done. -/
def watchdogPoll : Duration := Routine.standard.poll

/-- How long a watchdog waits past the timeout of its job. -/
def watchdogGrace : Duration := Routine.standard.grace

/-- The queues of a configuration, if they can be built. -/
def queues? (config : Config) : Option (PerCategory Queue) :=
  (Queue.build? config.queueCapacity.toNat).map .both

/-- The world before the daemon starts. -/
def idle (settings : Settings) (queues : PerCategory Queue) : World :=
  .start settings (.start queues)

/-- Starts every task.  They become ready in this order: the workers, the timers
in the order of the targets, the samplers. -/
def start (config : Config) (w : World) : World :=
  let w := Category.all.foldl (fun w c => w.spawn (.worker c false none)) w
  let w := w.startTimers config.targets
  let w := (w.spawn (.depthSampler none)).spawn (.taskSampler none)
  w.onCollector (·.log (.coordinatorRunning config.filesystems.length config.directories.length
    config.queueCapacity.toNat))

/-- Whether the daemon still waits for a task. -/
def busy (w : World) : Bool := w.slots.any fun s => World.isAwaited s.task

/-- The summary of a target. -/
def summary (i : Item) : Event :=
  .targetSummary i.category i.name i.completedRuns i.running i.lastDuration

/-- Tells what was done. -/
def conclude (s : Collector) : Collector :=
  let s := s.log (.coordinatorStopped s.stats)
  Category.all.foldl (fun s c =>
    (s.ledgers.get c).sortedItems.foldl (fun s i => s.log (summary i)) s) s

/-- Requests shutdown and waits for the tasks. -/
def stop (w : World) : World :=
  let w := w.shutdown.onCollector (·.log .shutdownRequested)
  let w := (World.runUntilNone World.isAwaited w).settleReady
  w.onCollector conclude

end DiskWatch.Daemon
