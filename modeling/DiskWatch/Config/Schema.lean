/-
DiskWatch/Config/Schema.lean

What a configuration document must look like.  A section is described by its
fields: their names, how each value is read, and which of them may be left out.
Sections are tables, or arrays of the values in the order of the fields.

The first thing that does not fit is the complaint: entries are looked at in
the order of the document, and what is missing is noticed after them.
-/
import DiskWatch.Config.Basic
import DiskWatch.Decimal.Shortest
import DiskWatch.Text.Blank
import DiskWatch.Text.Quoted
import DiskWatch.Toml.Value

namespace DiskWatch.Config

/-! ### Complaints -/

/-- What does not fit. -/
inductive Complaint
  | unknownField (name : String) (known : List String)
  | missingField (name : String)
  | wrongType (found : Toml) (expected : String)
  | wrongValue (found : Int) (expected : String)
  /-- An array that ends before the fields do. -/
  | tooShort
  deriving Repr

/-- Doubles in complaints are written with a point, whatever their size. -/
def plainStyle : Decimal.Style := ⟨-1000, 1000⟩

/-- A value that was found, in words. -/
def foundText : Toml → String
  | .string s => "string " ++ Text.quoted s
  | .integer i => "integer " ++ "\x60" ++ Text.showInt i ++ "\x60"
  | .float x => "floating point " ++ "\x60" ++ x.render plainStyle "NaN" "inf" ++ "\x60"
  | .boolean b => "boolean " ++ "\x60" ++ (if b then "true" else "false") ++ "\x60"
  | .datetime | .table _ => "map"
  | .array _ => "sequence"

/-- A name between accents. -/
def accented (name : String) : String := "\x60" ++ name ++ "\x60"

/-- The names that would have fit. -/
def oneOf : List String → String
  | [a] => accented a
  | [a, b] => accented a ++ " or " ++ accented b
  | names => "one of " ++ ", ".intercalate (names.map accented)

/-- The complaint in words. -/
def Complaint.message : Complaint → String
  | .unknownField name known => "unknown field " ++ accented name ++ ", expected " ++ oneOf known
  | .missingField name => "missing field " ++ accented name
  | .wrongType found expected => "invalid type: " ++ foundText found ++ ", expected " ++ expected
  | .wrongValue found expected =>
    "invalid value: " ++ foundText (.integer found) ++ ", expected " ++ expected
  | .tooShort => "invalid length"

/-- How the complaints that are passed on begin. -/
def openings : List String := ["unknown field", "missing field", "invalid type", "invalid value"]

/-- The last line of a complaint, if it begins like one that is passed on. -/
def Complaint.passedOn? (c : Complaint) : Option String :=
  match (Text.visibleLines c.message.toList).getLast? with
  | some line => if openings.any fun o => o.toList.isPrefixOf line then some (String.ofList line)
    else none
  | none => none

/-! ### Values -/

/-- How a value is read. -/
abbrev Decoder (α : Type) := Toml → Except Complaint α

/-- A text. -/
def string : Decoder String
  | .string s => .ok s
  | v => .error (.wrongType v "a string")

/-- A path. -/
def path : Decoder Path
  | .string s => .ok ⟨s⟩
  | v => .error (.wrongType v "path string")

/-- A whole number up to `greatest`. -/
def whole (greatest : Nat) (expected : String) : Decoder Nat
  | .integer i =>
    if 0 ≤ i ∧ i ≤ greatest then .ok i.toNat else .error (.wrongValue i expected)
  | v => .error (.wrongType v expected)

/-- A 64-bit word. -/
def word : Decoder UInt64 := fun v => (whole (UInt64.size - 1) "u64" v).map UInt64.ofNat

/-- A number of things. -/
def count : Decoder UInt64 := fun v => (whole (UInt64.size - 1) "usize" v).map UInt64.ofNat

/-- A 32-bit word. -/
def shortWord : Decoder UInt32 := fun v => (whole (UInt32.size - 1) "u32" v).map UInt32.ofNat

/-- Values of one kind. -/
def listOf {α : Type} (d : Decoder α) : Decoder (List α)
  | .array items => items.mapM d
  | v => .error (.wrongType v "a sequence")

/-! ### Sections -/

/-- A field of a section that is gathered in a `δ`. -/
structure Field (δ : Type) where
  name : String
  read : Toml → δ → Except Complaint δ
  /-- Whether an array may end before the field. -/
  omittable : Bool

/-- A section: its fields, what holds without them, and what it amounts to. -/
structure Section (δ α : Type) where
  expected : String
  fields : List (Field δ)
  start : δ
  finish : δ → Except Complaint α

namespace Section

variable {δ α : Type}

/-- A field that takes the value of a decoder. -/
def field {β : Type} (name : String) (omittable : Bool) (d : Decoder β) (set : β → δ → δ) :
    Field δ :=
  ⟨name, fun v draft => (d v).map (set · draft), omittable⟩

/-- Reads the entries of a table in their order. -/
def readEntries (s : Section δ α) : List (String × Toml) → δ → Except Complaint δ
  | [], draft => .ok draft
  | (name, v) :: rest, draft =>
    match s.fields.find? (·.name == name) with
    | none => .error (.unknownField name (s.fields.map (·.name)))
    | some f =>
      match f.read v draft with
      | .error e => .error e
      | .ok draft => readEntries s rest draft

/-- Reads the items of an array as the fields in their order.  More items than
fields do no harm. -/
def readItems : List (Field δ) → List Toml → δ → Except Complaint δ
  | [], _, draft => .ok draft
  | f :: fs, [], draft => if f.omittable then readItems fs [] draft else .error .tooShort
  | f :: fs, v :: vs, draft =>
    match f.read v draft with
    | .error e => .error e
    | .ok draft => readItems fs vs draft

/-- The only name in the table that stands for a date. -/
def dateField : String := "$__toml_private_datetime"

/-- Reads a section. -/
def read (s : Section δ α) : Decoder α
  | .table entries => do s.finish (← s.readEntries entries s.start)
  | .array items => do s.finish (← readItems s.fields items s.start)
  | .datetime => .error (.unknownField dateField (s.fields.map (·.name)))
  | v => .error (.wrongType v s.expected)

end Section

/-! ### The sections of the configuration -/

/-- The value of a field that must be there. -/
def required {α : Type} (name : String) : Option α → Except Complaint α
  | some a => .ok a
  | none => .error (.missingField name)

/-- The retry section. -/
def retrySection : Section RetrySection RetrySection :=
  { expected := "struct RetryConfig"
    fields := [
      Section.field "max_attempts" true shortWord fun n d => { d with maxAttempts := n },
      Section.field "initial_delay_secs" true word fun n d => { d with initialDelaySecs := n }]
    start := standardRetry
    finish := .ok }

/-- What is known of a file system so far. -/
structure FilesystemDraft where
  name : Option String
  mountPoint : Option Path
  device : String
  intervalSecs : Option UInt64
  timeoutSecs : Option UInt64

/-- A file system. -/
def filesystemSection : Section FilesystemDraft FilesystemEntry :=
  { expected := "struct FilesystemConfig"
    fields := [
      Section.field "name" false string fun s d => { d with name := some s },
      Section.field "mount_point" false path fun p d => { d with mountPoint := some p },
      Section.field "device" true string fun s d => { d with device := s },
      Section.field "interval_secs" false word fun n d => { d with intervalSecs := some n },
      Section.field "timeout_secs" false word fun n d => { d with timeoutSecs := some n }]
    start := ⟨none, none, "", none, none⟩
    finish := fun d => do
      let name ← required "name" d.name
      let mountPoint ← required "mount_point" d.mountPoint
      .ok ⟨name, mountPoint, d.device, d.intervalSecs, d.timeoutSecs⟩ }

/-- What is known of a directory so far. -/
structure DirectoryDraft where
  name : Option String
  path : Option Path
  levels : UInt32
  intervalSecs : Option UInt64
  timeoutSecs : Option UInt64

/-- A directory. -/
def directorySection : Section DirectoryDraft DirectoryEntry :=
  { expected := "struct DirectoryConfig"
    fields := [
      Section.field "name" false string fun s d => { d with name := some s },
      Section.field "path" false path fun p d => { d with path := some p },
      Section.field "subdirectory_levels" true shortWord fun n d => { d with levels := n },
      Section.field "interval_secs" false word fun n d => { d with intervalSecs := some n },
      Section.field "timeout_secs" false word fun n d => { d with timeoutSecs := some n }]
    start := ⟨none, none, 0, none, none⟩
    finish := fun d => do
      let name ← required "name" d.name
      let path ← required "path" d.path
      .ok ⟨name, path, d.levels, d.intervalSecs, d.timeoutSecs⟩ }

/-- The whole configuration. -/
def documentSection : Section Config Config :=
  { expected := "struct Config"
    fields := [
      Section.field "default_interval_secs" true word fun n c =>
        { c with defaultIntervalSecs := n },
      Section.field "queue_capacity" true count fun n c => { c with queueCapacity := n },
      Section.field "log_level" true string fun s c => { c with logLevel := s },
      Section.field "otel_endpoint" true string fun s c => { c with endpoint := some s },
      Section.field "service_name" true string fun s c => { c with serviceName := s },
      Section.field "retry" true retrySection.read fun r c => { c with retry := r },
      Section.field "filesystems" true (listOf filesystemSection.read) fun l c =>
        { c with filesystems := l },
      Section.field "directories" true (listOf directorySection.read) fun l c =>
        { c with directories := l }]
    start := standard
    finish := .ok }

end DiskWatch.Config
