/-
DiskWatch/Shell/Signal.lean

Signals: their names and numbers, and what they do to a process that takes no
care of them.
-/
import DiskWatch.Text.Number

namespace DiskWatch.Shell

/-- The number of a signal. -/
def signal? (name : String) : Option Nat :=
  let names := [("HUP", 1), ("INT", 2), ("QUIT", 3), ("ILL", 4), ("TRAP", 5), ("ABRT", 6),
    ("BUS", 7), ("FPE", 8), ("KILL", 9), ("USR1", 10), ("SEGV", 11), ("USR2", 12), ("PIPE", 13),
    ("ALRM", 14), ("TERM", 15), ("CHLD", 17), ("CONT", 18), ("STOP", 19), ("TSTP", 20)]
  match Text.readUpTo 64 name.toList with
  | .ok n => some n
  | .error _ =>
    names.lookup (if name.startsWith "SIG" then String.ofList (name.toList.drop 3) else name)

/-- What a signal does to a process that takes no care of it. -/
inductive Disposition
  | ignored
  | stops
  | ends
  deriving DecidableEq, Repr

/-- What a signal does. -/
def disposition (signal : Nat) : Disposition :=
  if signal = 0 || signal = 17 || signal = 18 || signal = 23 || signal = 28 then .ignored
  else if 19 ≤ signal && signal ≤ 22 then .stops
  else .ends

/-- The signal and the processes that the arguments of `kill` name. -/
def killArguments (arguments : List String) : Option (Nat × List String) :=
  match arguments with
  | "-s" :: name :: rest => (signal? name).map fun n => (n, rest)
  | first :: rest =>
    match first.toList with
    | '-' :: name => (signal? (String.ofList name)).map fun n => (n, rest)
    | _ => some (15, first :: rest)
  | [] => none

end DiskWatch.Shell
