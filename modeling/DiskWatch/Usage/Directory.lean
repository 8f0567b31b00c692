/-
DiskWatch/Usage/Directory.lean

The sizes of a directory and its subdirectories, from the report of `du`.
Each line holds a size in blocks of 1024 bytes and a path behind a tab.  The
report is read into a table of paths (`readReport`), and a target's samples are
the entries at most so many levels below it (`Samples.ofTable`).

A report is taken whole or not at all: the first line that does not fit is the
fault of the report.  Entries outside the target are set aside and listed.
-/
import DiskWatch.Error
import DiskWatch.PathTable
import DiskWatch.Usage.Filesystem

namespace DiskWatch.Usage

/-! ### The report -/

/-- The sizes in blocks by path. -/
abbrev SizeTable := PathTable UInt64

namespace SizeTable

/-- A line cut into size and path: at the first tab, else at the first white
space behind the leading one. -/
def cut? (line : List Char) : Option (List Char × List Char) :=
  Text.cutAt (· == '\t') line <|> Text.cutAt Text.isBlank (Text.trimStart line)

/-- The path and size of a line. -/
def ofLine (line : List Char) : Except ReportFault (Path × UInt64) :=
  match cut? line with
  | none => .error (.malformedLine (String.ofList line))
  | some (size, path) =>
    match Text.readWord (Text.trim size) with
    | .error fault => .error (.badSize (String.ofList line) fault)
    | .ok blocks =>
      .ok (⟨String.ofList (Path.normalizeChars (Text.trimEnd path))⟩, blocks)

/-- Adds the lines of a report to a table. -/
def addLines (t : SizeTable) : List (List Char) → Except ReportFault SizeTable
  | [] => .ok t
  | line :: rest =>
    match ofLine line with
    | .error fault => .error fault
    | .ok (path, blocks) => addLines (t.insert path blocks) rest

/-- The table of the lines of a report. -/
def ofLines (lines : List (List Char)) : Except ReportFault SizeTable :=
  if lines.isEmpty then .error .noOutput else addLines .empty lines

/-- The table of a report. -/
def ofReport (report : String) : Except ReportFault SizeTable :=
  ofLines (Text.visibleLines report.toList)

end SizeTable

/-! ### Samples -/

/-- One measured directory. -/
structure Sample where
  path : Path
  level : Nat
  bytes : UInt64
  deriving DecidableEq, Repr

namespace Sample

/-- Samples are listed by level, and by path within a level. -/
def le (a b : Sample) : Bool :=
  a.level < b.level || (a.level == b.level && (Path.compare a.path b.path).isLE)

/-- The sample of an entry, if it is not more than `levels` below the base. -/
def ofEntry? (base : Path) (levels : Nat) (entry : Path × UInt64) : Option Sample :=
  match Path.level? base entry.1 with
  | some level => if level ≤ levels then some ⟨entry.1, level, blockBytes entry.2⟩ else none
  | none => none

end Sample

/-- The samples of a base from a table, and the paths of the table that lie
outside of it. -/
structure Samples where
  inside : List Sample
  outside : List Path
  deriving DecidableEq, Repr

/-- Picks the samples of a base down to `levels` levels below it. -/
def Samples.ofTable (base : Path) (levels : Nat) (t : SizeTable) : Samples :=
  let base := base.normalize
  { inside := (t.entries.filterMap (Sample.ofEntry? base levels)).mergeSort Sample.le
    outside := (t.entries.filter fun e => (Path.level? base e.1).isNone).map (·.1) }

namespace Directory

/-- The arguments of `du`: a summary alone, or sizes down to a depth. -/
def arguments (path : Path) (levels : UInt32) : List String :=
  if levels = 0 then ["-s", "-x", "-k", path.text]
  else ["-x", "-k", "--max-depth=" ++ Text.showNat levels.toNat, path.text]

/-- The only entry of a summary is the size of the target. -/
def summary (job : Path) (t : SizeTable) : Except ReportFault (List Sample) :=
  match t.entries with
  | [(_, blocks)] => .ok [⟨job, 0, blockBytes blocks⟩]
  | entries => .error (.notOneLine entries.length)

/-- The samples of a target from the table of its report, and the paths of the
table outside the target that were looked at. -/
def samples (path : Path) (levels : UInt32) (t : SizeTable) :
    Except ReportFault (List Sample) × List Path :=
  if levels = 0 then (summary path t, [])
  else
    let s := Samples.ofTable path levels.toNat t
    (if s.inside.isEmpty then .error (.nothingUnder path) else .ok s.inside, s.outside)

end Directory

end DiskWatch.Usage
