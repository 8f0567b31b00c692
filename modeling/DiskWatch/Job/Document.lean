/-
DiskWatch/Job/Document.lean

What a job measures, as a JSON document.  The member `category` tells which
members follow; the document may also be an array of the category and the
values of the members in order.  Other members are passed over, a repeated
one is an error.

Main result: a document that was written is read back (`decode?_encode`).
-/
import DiskWatch.Job
import DiskWatch.Json.Reader

namespace DiskWatch

namespace JobKind

/-- The document of what a job measures. -/
def encode : JobKind → Json
  | filesystem job =>
    .object [("category", .string Category.filesystem.name),
      ("mount_point", .string job.mountPoint.text), ("device", .string job.device)]
  | directory job =>
    .object [("category", .string Category.directory.name),
      ("path", .string job.path.text), ("subdirectory_levels", Json.nat job.levels.toNat)]

/-- The names of the members besides the category. -/
def memberNames : Category → String × String
  | .filesystem => ("mount_point", "device")
  | .directory => ("path", "subdirectory_levels")

/-- The value of a member that must be there once. -/
def single? (name : String) (members : List (String × Json)) : Option Json :=
  match members.filter (·.1 == name) with
  | [(_, value)] => some value
  | _ => none

/-- What a job measures, from the values of its two members. -/
def ofValues? : Category → Json → Json → Option JobKind
  | .filesystem, .string mountPoint, .string device => some (.filesystem ⟨⟨mountPoint⟩, device⟩)
  | .directory, .string path, .number (.whole n) =>
    if n < UInt32.size then some (.directory ⟨⟨path⟩, UInt32.ofNat n⟩) else none
  | _, _, _ => none

/-- Reads the document of what a job measures. -/
def decode? : Json → Option JobKind
  | .object members => do
    let .string name ← single? "category" members | none
    let category ← Category.ofName? name
    let (first, second) := memberNames category
    ofValues? category (← single? first members) (← single? second members)
  | .array [.string name, first, second] => do
    ofValues? (← Category.ofName? name) first second
  | _ => none

theorem decode?_encode (k : JobKind) : decode? k.encode = some k := by
  cases k with
  | filesystem job =>
    simp [decode?, encode, single?, memberNames, ofValues?, Category.ofName?_name]
  | directory job =>
    simp [decode?, encode, single?, memberNames, ofValues?, Category.ofName?_name, Json.nat,
      job.levels.toNat_lt]

end JobKind

end DiskWatch
