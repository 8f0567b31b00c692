/-
DiskWatch/Launch.lean

What comes of starting a program, and what the caller makes of it.  The process
may not start at all, run for ever, or end with a status or by a signal.  It is
waited for until the limit of the call; one that has not ended before it is
stopped.

Main result: a call has a result if and only if its process starts, ends in
time and leaves the status zero (`execute_eq_ok_iff`).
-/
import DiskWatch.Call
import DiskWatch.Telemetry.Log
import DiskWatch.Text.Blank
import DiskWatch.Text.Utf8

namespace DiskWatch

/-- How a process ends. -/
inductive Ending
  | exited (status : Nat)
  | signalled (signal : Nat)
  deriving DecidableEq, Repr

/-- What a process leaves behind. -/
structure Output where
  ending : Ending
  stdout : List UInt8
  stderr : List UInt8
  deriving DecidableEq, Repr

/-- What comes of starting a program. -/
inductive Launch
  | notStarted (reason : String)
  | endless
  /-- The process ends and its output is complete `after` some time. -/
  | ends (after : Duration) (output : Output)
  deriving DecidableEq, Repr

/-- What the caller knows at the end.  There is an exit code if the process
ended with one, and a duration if it was started. -/
structure Execution where
  result : Except Error String
  exitCode : Option Int
  duration : Option Duration

namespace Call

/-- The output of a process that has ended, as the result of the call. -/
def outcome (c : Call) (o : Output) : Except Error String :=
  match o.ending with
  | .exited 0 => .ok (Text.decodeLossy o.stdout)
  | .exited status =>
    .error (.failed c.program status
      (String.ofList (Text.trim (Text.decodeLossy o.stderr).toList)))
  | .signalled signal => .error (.killed c.program signal)

/-- The status of a process that has ended with one. -/
def exitCode? (o : Output) : Option Int :=
  match o.ending with
  | .exited status => some status
  | .signalled _ => none

/-- The end of a call whose process was stopped. -/
def stopped (c : Call) : Execution := ⟨.error (.timedOut c.program c.limit), none, some c.limit⟩

/-- Waits for the process of a call. -/
def execute (c : Call) : Launch → Execution
  | .notStarted reason => ⟨.error (.notStarted c.program reason), none, none⟩
  | .endless => c.stopped
  | .ends after o =>
    if after < c.limit then ⟨c.outcome o, exitCode? o, some after⟩ else c.stopped

/-- The span of a call. -/
def span (c : Call) (e : Execution) : SpanKind :=
  .command c.program c.arguments c.limit e.exitCode e.duration

theorem outcome_eq_ok_iff (c : Call) (o : Output) (text : String) :
    c.outcome o = .ok text ↔ o.ending = .exited 0 ∧ Text.decodeLossy o.stdout = text := by
  unfold outcome
  split
  · next he => simp [he]
  · next status hz he =>
    simp only [he, Ending.exited.injEq, reduceCtorEq, false_iff, not_and]
    exact fun h => absurd h hz
  · next he => simp [he]

/-- When a call has a result. -/
theorem execute_eq_ok_iff (c : Call) (l : Launch) (text : String) :
    (c.execute l).result = .ok text ↔
      ∃ after o, l = .ends after o ∧ after < c.limit ∧ o.ending = .exited 0 ∧
        Text.decodeLossy o.stdout = text := by
  cases l with
  | notStarted reason => simp [execute]
  | endless => simp [execute, stopped]
  | ends after o =>
    by_cases h : after < c.limit
    · simp only [execute, h, if_true, outcome_eq_ok_iff]
      exact ⟨fun hk => ⟨after, o, rfl, h, hk⟩, fun ⟨_, _, he, _, hk⟩ => by cases he; exact hk⟩
    · simp only [execute, h, if_false, stopped, reduceCtorEq, false_iff]
      rintro ⟨_, _, he, hk, _⟩
      cases he
      exact h hk

end Call

end DiskWatch
