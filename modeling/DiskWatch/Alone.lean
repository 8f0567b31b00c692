/-
DiskWatch/Alone.lean

An activity that runs alone, from start to end.  Time passes in calls and
pauses only.  A cancellation comes at one instant or never, and it is seen by a
pause that is under way or begins after it.
-/
import DiskWatch.Activity
import DiskWatch.Clock

namespace DiskWatch

/-- A call with the instant at which it was made. -/
structure TimedCall where
  instant : Instant
  call : Call
  deriving DecidableEq, Repr

namespace Activity

variable {α : Type}

/-- What an activity that runs alone meets. -/
structure Conditions where
  clock : Clock
  surroundings : Surroundings
  cancelAt : Option Instant
  /-- Which comes first when a pause ends as the cancellation comes. -/
  cancelFirst : Bool
  /-- The span under which reports are read. -/
  span : Option Nat

/-- What has happened so far. -/
structure Progress where
  now : Instant
  calls : List TimedCall
  telemetry : Telemetry

/-- Nothing has happened yet. -/
def Progress.start : Progress := ⟨0, [], .empty⟩

/-- Whether a pause is cut short, and when it ends. -/
def pauseEnd (c : Conditions) (now : Instant) (d : Duration) : Bool × Instant :=
  let wake := c.clock.wake now d
  match c.cancelAt with
  | none => (false, wake)
  | some t =>
    let t := max now t
    if t < wake then (true, t)
    else if t = wake then (c.cancelFirst, wake)
    else (false, wake)

/-- Records a note under a span. -/
def keep (span : Option Nat) (t : Telemetry) : Note → Telemetry
  | .event e => t.log e
  | .parsed tool lines samples => t.addSpan span (.parse tool lines samples)

/-- Runs an activity to its end. -/
def run (c : Conditions) : Activity α → Progress → α × Progress
  | done a, p => (a, p)
  | look path next, p => run c (next (c.surroundings.look path)) p
  | call k next, p =>
    let ended := (p.calls.map (·.call)).reverse
    run c (next (c.surroundings.result ended k))
      { p with
        now := c.clock.wake p.now (c.surroundings.delay k)
        calls := p.calls ++ [⟨p.now, k⟩] }
  | pause d next, p =>
    let (cut, wake) := pauseEnd c p.now d
    run c (next cut) { p with now := wake }
  | note n next, p => run c next { p with telemetry := keep c.span p.telemetry n }

end Activity

end DiskWatch
