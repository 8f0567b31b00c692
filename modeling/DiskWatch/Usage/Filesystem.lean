/-
DiskWatch/Usage/Filesystem.lean

The usage of a file system, from the report of `df -k`.  A row of the report
holds the device and then three columns of numbers: size, used and available,
in blocks of 1024 bytes.  A long device name moves the columns to a line of
their own, so a line is a row with or without the device in front.

Main results: the bytes used and the bytes available make up the size whenever
no more blocks are available than there are (`used_add_available`), and the
bytes used never exceed the size (`used_le_size`).
-/
import DiskWatch.Error
import DiskWatch.Text.Blank

namespace DiskWatch

/-- The bytes of a number of blocks, or the greatest word if there are more. -/
def blockBytes (blocks : UInt64) : UInt64 :=
  UInt64.ofNat (min (blocks.toNat * 1024) (UInt64.size - 1))

theorem toNat_blockBytes (blocks : UInt64) :
    (blockBytes blocks).toNat = min (blocks.toNat * 1024) (UInt64.size - 1) := by
  unfold blockBytes
  rw [UInt64.toNat_ofNat_of_lt']
  have := Nat.min_le_right (blocks.toNat * 1024) (UInt64.size - 1)
  exact Nat.lt_of_le_of_lt this (by decide)

namespace Usage

/-! ### The report -/

/-- Size and free space of a file system in blocks. -/
structure Blocks where
  size : UInt64
  available : UInt64
  deriving DecidableEq, Repr

namespace Blocks

/-- The counts of a row whose columns start with the first field. -/
def ofFields? : List (List Char) → Option Blocks
  | size :: used :: available :: _ => do
    let size ← Text.readWord? size
    let _ ← Text.readWord? used
    let available ← Text.readWord? available
    some ⟨size, available⟩
  | _ => none

/-- The counts of a line, with the columns from the first field on or behind a
device. -/
def ofLine? (line : List Char) : Option Blocks :=
  let fields := Text.words line
  ofFields? fields <|> ofFields? fields.tail

/-- The counts in the lines of a report.  The first row behind the heading
counts; without one, the lines are searched from the end, heading included. -/
def ofLines (lines : List (List Char)) : Except ReportFault Blocks :=
  if lines.isEmpty then .error .noOutput
  else match lines.tail.findSome? ofLine? <|> lines.reverse.findSome? ofLine? with
    | some blocks => .ok blocks
    | none => .error (.noNumericRow lines.length)

/-- The counts in a report. -/
def ofReport (report : String) : Except ReportFault Blocks :=
  ofLines (Text.visibleLines report.toList)

end Blocks

/-! ### Usage -/

/-- The usage of a file system in bytes. -/
structure Filesystem where
  size : UInt64
  available : UInt64
  used : UInt64
  /-- The part of the size that is used; zero for a file system without size. -/
  ratio : Float

namespace Filesystem

/-- The difference of two words, or zero if the second is greater. -/
def excess (a b : UInt64) : UInt64 := if b ≤ a then a - b else 0

/-- The usage that follows from the counts. -/
def ofBlocks (b : Blocks) : Filesystem :=
  let size := blockBytes b.size
  let available := blockBytes b.available
  let used := excess size available
  ⟨size, available, used, if size = 0 then 0.0 else used.toFloat / size.toFloat⟩

theorem toNat_excess (a b : UInt64) : (excess a b).toNat = a.toNat - b.toNat := by
  unfold excess
  split
  · next h => exact UInt64.toNat_sub_of_le _ _ h
  · next h =>
    have := UInt64.lt_iff_toNat_lt.1 (UInt64.not_le.1 h)
    simp; omega

/-- No more is used than there is. -/
theorem used_le_size (b : Blocks) : (ofBlocks b).used.toNat ≤ (ofBlocks b).size.toNat := by
  show (excess _ _).toNat ≤ _
  rw [toNat_excess]
  exact Nat.sub_le _ _

/-- What is used and what is available make up the size. -/
theorem used_add_available (b : Blocks) (h : b.available.toNat ≤ b.size.toNat) :
    (ofBlocks b).used.toNat + (ofBlocks b).available.toNat = (ofBlocks b).size.toNat := by
  show (excess _ _).toNat + (blockBytes b.available).toNat = (blockBytes b.size).toNat
  rw [toNat_excess]
  refine Nat.sub_add_cancel ?_
  rw [toNat_blockBytes, toNat_blockBytes]
  omega

/-- The arguments of `df` for one mount point. -/
def arguments (mountPoint : Path) : List String := ["-k", mountPoint.text]

/-- The time that `df` gets, whatever the timeout of the job. -/
def timeLimit : Duration := .ofSecs 10

end Filesystem

end Usage

end DiskWatch
