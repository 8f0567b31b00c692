/-
DiskWatch/Cli/Show.lean

What the commands print: the schedule of a configuration as a table, and a
measurement as a table or as a JSON document.
-/
import DiskWatch.Config.Basic
import DiskWatch.Decimal.Fixed
import DiskWatch.Decimal.Shortest
import DiskWatch.Json.Value
import DiskWatch.Measurement
import DiskWatch.Text.Column

namespace DiskWatch.Cli

open Text (alignLeft alignRight rule showNat unlines)

/-- The columns of a row. -/
def row (cells : List String) : String := "  ".intercalate cells

/-! ### The schedule -/

/-- The heading of the schedule. -/
def scheduleHeading : String :=
  row [alignLeft 10 "CATEGORY", alignLeft 20 "NAME", alignLeft 40 "PATH", alignRight 9 "INTERVAL",
    alignRight 9 "TIMEOUT", "LEVELS"]

/-- The levels of a target; a file system has none. -/
def levelsText : JobKind → String
  | .filesystem _ => "-"
  | .directory job => showNat job.levels.toNat

/-- The row of a target.  The category is not filled up to the width of its
heading. -/
def scheduleRow (t : Target) : String :=
  row [t.category.name, alignLeft 20 t.name, alignLeft 40 t.kind.path.text,
    alignRight 8 (showNat t.interval.secs) ++ "s", alignRight 8 (showNat t.timeout.secs) ++ "s",
    levelsText t.kind]

/-- The warning about a target whose measurements may overlap. -/
def warning (t : Target) : String :=
  "warning: " ++ t.category.name ++ " '" ++ t.name ++ "' interval (" ++ showNat t.interval.secs ++
    "s) is shorter than its timeout (" ++ showNat t.timeout.secs ++ "s)"

/-- The schedule of a configuration, with the warnings behind it. -/
def schedule (c : Config) : String :=
  let targets := c.targets
  unlines ([scheduleHeading, rule 104] ++ targets.map scheduleRow ++
    ["", showNat targets.length ++ " target(s), queue capacity " ++
      showNat c.queueCapacity.toNat] ++
    (targets.filter Target.intervalShorter).map warning)

/-! ### Measurements -/

/-- A number of bytes with its unit. -/
def bytesText (n : UInt64) : String := showNat n.toNat ++ " bytes"

/-- The usage of a file system as lines. -/
def usageLines (t : Target) (u : Usage.Filesystem) : List String :=
  let percent := Decimal.Double.fixed 1 (.ofBits (u.ratio * 100.0).toBits)
  ["Target:     " ++ t.name, "Mount:      " ++ t.kind.path.text,
    "Size:       " ++ bytesText u.size, "Available:  " ++ bytesText u.available,
    "Used:       " ++ bytesText u.used ++ " (" ++ percent ++ "%)"]

/-- The samples of a directory as lines. -/
def sampleLines (samples : List Usage.Sample) : List String :=
  [row [alignLeft 5 "LEVEL", alignRight 16 "BYTES", "PATH"], rule 60] ++
    samples.map (fun s =>
      row [alignLeft 5 (showNat s.level), alignRight 16 (showNat s.bytes.toNat), s.path.text]) ++
    ["", showNat samples.length ++ " directories"]

/-- A measurement of a target as a table. -/
def table (t : Target) : Measurement → String
  | .filesystem u => unlines (usageLines t u)
  | .directory samples => unlines (sampleLines samples)

/-- Doubles in documents: a power of ten is used below 1e-5 and from 1e16 on. -/
def ratioStyle : Decimal.Style := ⟨-4, 16⟩

/-- A sample as a document. -/
def sampleDocument (s : Usage.Sample) : Json :=
  .object [("path", .string s.path.text), ("level", Json.nat s.level),
    ("size_bytes", Json.nat s.bytes.toNat)]

/-- A measurement as a document. -/
def document : Measurement → Json
  | .filesystem u =>
    let ratio := Decimal.Double.render ratioStyle "null" "null" (.ofBits u.ratio.toBits)
    .object [("category", .string Category.filesystem.name), ("size_bytes", Json.nat u.size.toNat),
      ("available_bytes", Json.nat u.available.toNat), ("used_bytes", Json.nat u.used.toNat),
      ("used_ratio", .number (.literal ratio))]
  | .directory samples =>
    .object [("category", .string Category.directory.name),
      ("samples", .array (samples.map sampleDocument))]

/-- A measurement of a target, as it is printed. -/
def measured (t : Target) (json : Bool) (m : Measurement) : String :=
  if json then (document m).pretty ++ "\n" else table t m

end DiskWatch.Cli
