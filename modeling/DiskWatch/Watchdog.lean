/-
DiskWatch/Watchdog.lean

The look-out for a job that was handed over.  A watchdog begins with a deadline,
looks at once and then once a period, and closes at the first look that finds
the job gone or the deadline reached.  A shutdown closes it at any time.  It fails
where there is no next look to set out before the one that is due.

What a look finds depends on the shared state and the clock alone, so a watchdog
takes the same decision in the running program and in any interleaving.
-/
import DiskWatch.Collector
import DiskWatch.Retry

namespace DiskWatch

/-- How the program goes about its work. -/
structure Routine where
  clock : Clock
  policy : RetryPolicy
  /-- How often a watchdog looks. -/
  poll : Duration
  /-- How long a watchdog waits past the timeout of its job. -/
  grace : Duration

/-- A look every tenth of a second, and five seconds past the timeout. -/
def Routine.standard : Routine := ⟨.standard, .standard, .ofMillis 100, .ofSecs 5⟩

/-- A watchdog at work. -/
structure Watch where
  began : Instant
  deadline : Instant
  due : Instant
  deriving DecidableEq, Repr

/-- What a watchdog does when it gets to run. -/
inductive Glance
  | close (v : Collector.Verdict)
  | again (due : Instant)
  | sleep
  | fail
  deriving DecidableEq, Repr

namespace Watch

/-- A watchdog that begins now.  There is none if the clock cannot show the
deadline, or if it would look all the time. -/
def begin? (r : Routine) (timeout : Duration) (now : Instant) : Option Watch := do
  let t ← r.clock.later? now timeout
  let deadline ← r.clock.later? t r.grace
  if r.poll.nanos = 0 then none else some ⟨now, deadline, now⟩

/-- What a watchdog does now. -/
def glance (w : Watch) (r : Routine) (s : Collector) (id : JobId) (now : Instant) : Glance :=
  if s.shutdown then .close .shutdown
  else if r.clock.alarm w.due ≤ now then
    -- the next look is set before this one is taken
    match r.clock.nextBeat? .delay w.due now r.poll with
    | none => .fail
    | some due =>
      if !s.pending id then .close .completed
      else if w.deadline ≤ now then .close .timedOut
      else .again due
  else .sleep

end Watch

end DiskWatch
