/-
DiskWatch/Error.lean

Everything that can go wrong, by cause.  A cause keeps the values it is about;
its wording is in one place (`Error.message`), and so are the short label under
which it is counted (`Error.kind`) and the rule when to try again
(`Error.retryable`).
-/
import DiskWatch.Category
import DiskWatch.Duration
import DiskWatch.Path
import DiskWatch.Text.Quoted

namespace DiskWatch

/-- The program whose report is read. -/
inductive Tool
  | df
  | du
  deriving DecidableEq, Repr

/-- The name under which the program is called. -/
def Tool.name : Tool → String
  | .df => "df"
  | .du => "du"

/-! ### Faults by area -/

/-- Why a path is not measured. -/
inductive PathFault
  | forbidden (pattern : String)
  | notAbsolute
  | missing
  | unreadable (reason : String)
  | stated (reason : String)
  deriving DecidableEq, Repr

/-- The fault in words. -/
def PathFault.message : PathFault → String
  | .forbidden pattern => "contains forbidden pattern '" ++ pattern ++ "'"
  | .notAbsolute => "not absolute"
  | .missing => "does not exist"
  | .unreadable reason => "cannot stat: " ++ reason
  | .stated reason => reason

/-- Why the report of a tool is not understood. -/
inductive ReportFault
  | noOutput
  | noNumericRow (lines : Nat)
  | malformedLine (line : String)
  | badSize (line : String) (fault : Text.NumberFault)
  | notOneLine (lines : Nat)
  | nothingUnder (path : Path)
  | stated (detail : String)
  deriving DecidableEq, Repr

/-- The fault in words. -/
def ReportFault.message : ReportFault → String
  | .noOutput => "empty output"
  | .noNumericRow lines => "no numeric row in " ++ Text.showNat lines ++ " line(s)"
  | .malformedLine line => "malformed line " ++ Text.quoted line
  | .badSize line fault => "bad size in " ++ Text.quoted line ++ ": " ++ fault.message
  | .notOneLine lines => "expected one summary line, got " ++ Text.showNat lines
  | .nothingUnder path => "no entries under " ++ path.text
  | .stated detail => detail

/-- Why a configuration is not used. -/
inductive ConfigFault
  | noTargets
  | zeroCapacity
  | zeroAttempts
  | emptyName (category : Category)
  | duplicateName (category : Category) (name : String)
  | relativePath (category : Category) (name : String) (path : Path)
  | unreadable (file : Path) (reason : String)
  /-- The document does not fit; the complaint is there if it names a field. -/
  | badDocument (complaint : Option String)
  | inFile (file : Path) (fault : ConfigFault)
  | stated (text : String)
  deriving DecidableEq, Repr

/-- The fault in words. -/
def ConfigFault.message : ConfigFault → String
  | .noTargets => "no filesystems or directories configured"
  | .zeroCapacity => "queue_capacity must be at least 1"
  | .zeroAttempts => "retry.max_attempts must be at least 1"
  | .emptyName category => category.name ++ " target with empty name"
  | .duplicateName category name => "duplicate " ++ category.name ++ " target '" ++ name ++ "'"
  | .relativePath category name path =>
    category.name ++ " target '" ++ name ++ "': path " ++ path.text ++ " is not absolute"
  | .unreadable file reason => "cannot read " ++ file.text ++ ": " ++ reason
  | .badDocument none => "bad config"
  | .badDocument (some complaint) => "bad config: " ++ complaint
  | .inFile file fault => file.text ++ ": config error: " ++ fault.message
  | .stated text => text

/-! ### Errors -/

/-- A failure of the program, by cause. -/
inductive Error
  | invalidPath (path : Path) (fault : PathFault)
  | failed (program : String) (code : Int) (stderr : String)
  | killed (program : String) (signal : Int)
  /-- The process was stopped at its deadline. -/
  | timedOut (program : String) (limit : Duration)
  | notStarted (program : String) (reason : String)
  | cancelled
  | badReport (tool : Tool) (fault : ReportFault)
  | queueFull (category : Category) (capacity : Nat)
  | queueClosed (category : Category)
  | notSeenComplete (job : String) (after : Duration)
  | config (fault : ConfigFault)
  | io (reason : String)
  | other (text : String)
  deriving DecidableEq, Repr

namespace Error

/-- The error in words. -/
def message : Error → String
  | invalidPath path fault => "invalid path " ++ path.text ++ ": " ++ fault.message
  | failed program code stderr =>
    program ++ " exited with status " ++ Text.showInt code ++ ": " ++ stderr
  | killed program signal => program ++ " was killed by signal " ++ Text.showInt signal
  | timedOut program limit => program ++ " timed out after " ++ limit.render
  | notStarted program reason => "failed to start " ++ program ++ ": " ++ reason
  | cancelled => "operation cancelled"
  | badReport tool fault => "unexpected " ++ tool.name ++ " output: " ++ fault.message
  | queueFull category capacity =>
    category.name ++ " queue is full (capacity " ++ Text.showNat capacity ++ ")"
  | queueClosed category => category.name ++ " queue is closed"
  | notSeenComplete job after =>
    "job " ++ job ++ " not observed complete after " ++ after.render
  | config fault => "config error: " ++ fault.message
  | io reason => "io error: " ++ reason
  | other text => text

/-- The label under which an error is counted. -/
def kind : Error → String
  | invalidPath .. => "validation"
  | failed .. | killed .. | timedOut .. | notStarted .. | cancelled => "execution"
  | badReport .. => "parse"
  | queueFull .. => "queue_full"
  | queueClosed .. => "queue_closed"
  | notSeenComplete .. => "watchdog"
  | config .. => "config"
  | io .. => "io"
  | other .. => "other"

/-- Only a plain exit with a non-zero status is worth another attempt. -/
def retryable : Error → Bool
  | failed .. => true
  | _ => false

theorem retryable_iff {e : Error} :
    e.retryable = true ↔ ∃ program code stderr, e = .failed program code stderr := by
  constructor
  · intro he
    cases e with
    | failed program code stderr => exact ⟨program, code, stderr, rfl⟩
    | _ => cases he
  · rintro ⟨program, code, stderr, rfl⟩
    rfl

/-- The failure of the system that lies beneath an error, if there is one. -/
def cause? : Error → Option String
  | notStarted _ reason => some reason
  | io reason => some reason
  | _ => none

end Error

end DiskWatch
