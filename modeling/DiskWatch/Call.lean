/-
DiskWatch/Call.lean

Calls of external programs, and the outside world as far as it answers a
measurement: programs, which take time and give an output or an error, and the
file system, which tells whether a path exists.
-/
import DiskWatch.Error

namespace DiskWatch

/-- One call of a program, with the time it gets. -/
structure Call where
  program : String
  arguments : List String
  limit : Duration
  deriving DecidableEq, Repr

/-- What a look at a path finds. -/
inductive PathStatus
  | present
  | absent
  | unreadable (reason : String)
  deriving DecidableEq, Repr

/-- What answers a measurement.  The result of a call may depend on the calls
that have ended before, which are given with the latest first. -/
structure Surroundings where
  look : Path → PathStatus
  delay : Call → Duration
  result : (ended : List Call) → Call → Except Error String

end DiskWatch
