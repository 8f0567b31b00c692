/-
DiskWatch/Measurement.lean

One measurement from start to end: the path is checked, the tool is called, as
often as the retry policy allows, and its report is read.  The first of these
that fails is the result; nothing is measured in part.
-/
import DiskWatch.Guard
import DiskWatch.Usage.Directory

namespace DiskWatch

/-- The result of a successful measurement. -/
inductive Measurement
  | filesystem (usage : Usage.Filesystem)
  | directory (samples : List Usage.Sample)

namespace Measurement

open Activity (done note call retrying)

/-- The call that measures a file system. -/
def filesystemCall (job : FilesystemJob) : Call :=
  ⟨Tool.df.name, Usage.Filesystem.arguments job.mountPoint, Usage.Filesystem.timeLimit⟩

/-- The call that measures a directory. -/
def directoryCall (job : DirectoryJob) (timeout : Duration) : Call :=
  ⟨Tool.du.name, Usage.Directory.arguments job.path job.levels, timeout⟩

/-- The call that measures something. -/
def callOf (kind : JobKind) (timeout : Duration) : Call :=
  match kind with
  | .filesystem job => filesystemCall job
  | .directory job => directoryCall job timeout

/-- Reads a report of `df`. -/
def readFilesystem (report : String) : Activity (Except Error Measurement) :=
  let lines := Text.visibleLines report.toList
  note (.parsed .df lines.length none)
    (done (match Usage.Blocks.ofLines lines with
      | .error fault => .error (.badReport .df fault)
      | .ok blocks => .ok (.filesystem (.ofBlocks blocks))))

/-- Notes the paths outside a target, one after another. -/
def noteOutside {α : Type} (base : Path) (paths : List Path) (next : Activity α) : Activity α :=
  paths.foldr (fun p rest => note (.event (.outsideTarget base.normalize p)) rest) next

/-- Reads a report of `du`. -/
def readDirectory (job : DirectoryJob) (report : String) : Activity (Except Error Measurement) :=
  let lines := Text.visibleLines report.toList
  match Usage.SizeTable.ofLines lines with
  | .error fault => note (.parsed .du lines.length none) (done (.error (.badReport .du fault)))
  | .ok table =>
    let (samples, outside) := Usage.Directory.samples job.path job.levels table
    note (.parsed .du lines.length (some table.size))
      (noteOutside job.path outside
        (done (match samples with
          | .error fault => .error (.badReport .du fault)
          | .ok samples => .ok (.directory samples))))

/-- Reads the report about something. -/
def read (kind : JobKind) (report : String) : Activity (Except Error Measurement) :=
  match kind with
  | .filesystem _ => readFilesystem report
  | .directory job => readDirectory job report

/-- The longest that a measurement takes, in nanoseconds: every attempt takes as long
as its call may, and every pause is waited out. -/
def longest (policy : RetryPolicy) (kind : JobKind) (timeout : Duration) : Nat :=
  policy.attempts * (callOf kind timeout).limit.nanos + policy.pauses

/-- Measures something.  The timeout bounds a directory measurement; a file
system has a limit of its own. -/
def take (policy : RetryPolicy) (kind : JobKind) (timeout : Duration) :
    Activity (Except Error Measurement) :=
  (Guard.check kind.path).bind fun
    | .error e => done (.error e)
    | .ok () =>
      let c := callOf kind timeout
      (retrying policy c.program fun _ => call c done).bind fun
        | .error e => done (.error e)
        | .ok report => read kind report

/-- A path whose text shows no fault is looked at, and if it is there the tool is
called until it gives a report. -/
theorem take_of_sound (policy : RetryPolicy) {kind : JobKind} (timeout : Duration)
    (h : Guard.textFault? kind.path = none) :
    ∃ next, take policy kind timeout = .look kind.path next ∧
      next .present = (retrying policy (callOf kind timeout).program fun _ =>
        call (callOf kind timeout) done).bind fun
          | .error e => done (.error e)
          | .ok report => read kind report := by
  rw [take, Guard.check, h]
  exact ⟨_, rfl, rfl⟩

/-! ### What is called -/

theorem noteOutside_uses {α : Type} {p : Call → Prop} {next : Activity α} (base : Path)
    (paths : List Path) (h : next.Uses p) : (noteOutside base paths next).Uses p := by
  induction paths with
  | nil => exact h
  | cons path paths ih => exact ih

/-- Reading a report calls nothing. -/
theorem read_uses (p : Call → Prop) (kind : JobKind) (report : String) :
    (read kind report).Uses p := by
  cases kind with
  | filesystem job => trivial
  | directory job =>
    show (readDirectory job report).Uses p
    rw [readDirectory]
    dsimp only
    split
    · trivial
    · exact noteOutside_uses job.path _ trivial

/-- A measurement makes no other call than the one for what it measures. -/
theorem take_uses (policy : RetryPolicy) (kind : JobKind) (timeout : Duration) :
    (take policy kind timeout).Uses (· = callOf kind timeout) := by
  have hcall : (call (callOf kind timeout) done).Uses (· = callOf kind timeout) :=
    ⟨rfl, fun _ => trivial⟩
  apply (Guard.check_uses _ kind.path).bind
  rintro (e | ⟨⟩)
  · trivial
  · apply (Activity.Uses.retrying (fun _ => hcall) policy _).bind
    rintro (e | report)
    · trivial
    · exact read_uses _ kind report

end Measurement

end DiskWatch
