/-
DiskWatch/Host.lean

A described file system: directories, files and programs by their place below
the root, and a working directory.  It answers whether a path exists, what a
file holds and which program a name stands for, and where it does not, it gives
the reason in the words of the operating system.

A path is walked from its start, name by name.  What is wrong first on that walk
is the answer, so a missing directory hides a name that is too long behind it.
-/
import DiskWatch.Call
import DiskWatch.Text.Utf8

namespace DiskWatch

/-- Why a path leads nowhere. -/
inductive HostFault
  | missing
  | notDirectory
  | nameTooLong
  | nulByte
  | isDirectory
  | noPermission
  | notText
  deriving DecidableEq, Repr

/-- The fault in words. -/
def HostFault.text : HostFault → String
  | .missing => "No such file or directory"
  | .notDirectory => "Not a directory"
  | .nameTooLong => "File name too long"
  | .nulByte => "file name contained an unexpected NUL byte"
  | .isDirectory => "Is a directory"
  | .noPermission => "Permission denied"
  | .notText => "stream did not contain valid UTF-8"

/-- The number of the fault, if the operating system has one for it. -/
def HostFault.number? : HostFault → Option Nat
  | .missing => some 2
  | .notDirectory => some 20
  | .nameTooLong => some 36
  | .isDirectory => some 21
  | .noPermission => some 13
  | .nulByte | .notText => none

/-- The fault in words, with its number. -/
def HostFault.message (f : HostFault) : String :=
  match f.number? with
  | some n => f.text ++ " (os error " ++ Text.showNat n ++ ")"
  | none => f.text

/-- What lies at a place. -/
inductive Place
  | directory
  | file (content : List UInt8)
  /-- A file that gives one byte for ever. -/
  | source (byte : UInt8)
  /-- A file that can be started, by the name under which the program is known. -/
  | program (name : String)
  deriving DecidableEq, Repr

/-- A described file system.  The root is always there. -/
structure Host where
  places : List (List String × Place)
  workingDirectory : List String

namespace Host

/-- The bytes that a whole path and a single name may have. -/
def pathLimit : Nat := 4095

/-- The bytes that a single name may have. -/
def nameLimit : Nat := 255

/-- What lies at a place that is given by the names from the root. -/
def at? (h : Host) (names : List String) : Option Place :=
  if names.isEmpty then some .directory else h.places.lookup names

/-- Walks on from a place; `names` leads there from the root, and every step
needs a directory to start from. -/
def walk (h : Host) (names : List String) : List String → Except HostFault (List String × Place)
  | [] => match h.at? names with
    | some place => .ok (names, place)
    | none => .error .missing
  | step :: rest =>
    match h.at? names with
    | none => .error .missing
    | some (.file _) | some (.source _) | some (.program _) => .error .notDirectory
    | some .directory =>
      if step == "" || step == "." then h.walk names rest
      else if step == ".." then h.walk names.dropLast rest
      else if nameLimit < step.utf8ByteSize then .error .nameTooLong
      else h.walk (names ++ [step]) rest

/-- Where a path leads. -/
def find (h : Host) (p : Path) : Except HostFault (List String × Place) :=
  if p.text.toList.any (· == '\x00') then .error .nulByte
  else if pathLimit < p.text.utf8ByteSize then .error .nameTooLong
  else if p.text.isEmpty then .error .missing
  else
    let steps := (Text.pieces (· == '/') p.text.toList).map String.ofList
    h.walk (if p.isAbsolute then [] else h.workingDirectory) steps

/-- What a look at a path finds. -/
def look (h : Host) (p : Path) : PathStatus :=
  match h.find p with
  | .ok _ => .present
  | .error .missing => .absent
  | .error fault => .unreadable fault.message

/-- The number of bytes by which a file without end is known. -/
def sourceLength : Nat := 1 <<< 20

/-- The content of a file.  What a program consists of is not described, only
that it is no text. -/
def read (h : Host) (p : Path) : Except HostFault (List UInt8) :=
  match h.find p with
  | .error fault => .error fault
  | .ok (_, .directory) => .error .isDirectory
  | .ok (_, .program _) => .ok [0xFF]
  | .ok (_, .source byte) => .ok (List.replicate sourceLength byte)
  | .ok (_, .file content) => .ok content

/-- Whether a path leads to a file without end. -/
def isSource (h : Host) (p : Path) : Bool :=
  match h.find p with
  | .ok (_, .source _) => true
  | _ => false

/-- The content of a file, as text. -/
def readText (h : Host) (p : Path) : Except HostFault String :=
  match h.read p with
  | .error fault => .error fault
  | .ok content =>
    match Text.decode? content with
    | some text => .ok text
    | none => .error .notText

/-! ### Programs -/

/-- The program at a path. -/
def programAt (h : Host) (p : Path) : Except HostFault String :=
  match h.find p with
  | .ok (_, .program name) => .ok name
  | .ok _ => .error .noPermission
  | .error fault => .error fault

/-- The first program of a name in the directories of a search path.  A file
that cannot be started is passed over, but remembered as the reason. -/
def searchProgram (h : Host) (name : String) : List String → HostFault → Except HostFault String
  | [], fault => .error fault
  | directory :: rest, fault =>
    match h.programAt ⟨directory ++ "/" ++ name⟩ with
    | .ok program => .ok program
    | .error .noPermission => h.searchProgram name rest .noPermission
    | .error _ => h.searchProgram name rest fault

/-- The program that a name stands for: the one at a path if the name holds a
separator, else the first one of the search path. -/
def findProgram (h : Host) (searchPath : List String) (name : String) :
    Except HostFault String :=
  if name.isEmpty then .error .missing
  else if name.toList.any (· == '/') then h.programAt ⟨name⟩
  else if nameLimit < name.utf8ByteSize then .error .nameTooLong
  else h.searchProgram name searchPath .missing

end Host

end DiskWatch
