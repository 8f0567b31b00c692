/-
DiskWatch/Shell/State.lean

A shell as a record: what it was called with, what it has printed, and what
time it is.  What changes it may also end it (`Run`), and then the record keeps
what was done until then.
-/
import DiskWatch.Shell.Command
import DiskWatch.Shell.Effect

namespace DiskWatch.Shell

/-! ### The state of a shell -/

/-- Where something printed goes. -/
inductive Sink
  | stdout
  | stderr
  | nowhere
  /-- A pipe, by how many pipes it lies within. -/
  | pipe (depth : Nat)
  deriving DecidableEq, Repr

/-- The descriptors of a command. -/
structure Descriptors where
  out : Sink
  err : Sink
  /-- The number of pipes around the command. -/
  depth : Nat
  deriving DecidableEq, Repr

/-- A command in the background.  It may never end by itself. -/
structure Companion where
  number : Nat
  ends : Option Nat
  status : Nat
  /-- Whether it holds the outputs of the shell. -/
  holds : Bool
  deriving DecidableEq, Repr

/-- A shell. -/
structure State where
  name : String
  parameters : List String
  number : Nat
  /-- The number of line ends in the script. -/
  lines : Nat
  settings : List (String × String)
  /-- The names of the settings that the shells within the shell see. -/
  exported : List String
  status : Nat
  /-- Whether a command that fails ends the shell. -/
  strict : Bool
  /-- What to do on signals; the number zero stands for the end. -/
  traps : List (Nat × String)
  /-- What is to be done for signals that came. -/
  caught : List String
  input : Feed
  /-- What was printed, the latest first. -/
  printed : List (Sink × List UInt8)
  clock : Nat
  /-- What runs in the background, the latest first. -/
  companions : List Companion

/-- Why a shell does not go on. -/
inductive Stop
  | leaves
  | dies (number signal : Nat)
  | hangs
  /-- Leaves a loop, and so many around it. -/
  | breaks (more : Nat)
  /-- Begins the next round of a loop, having left so many within it. -/
  | continues (more : Nat)
  deriving DecidableEq, Repr

/-- What changes a shell. -/
abbrev Run := ExceptT Stop (StateM State)

/-- Prints. -/
def print (sink : Sink) (bs : List UInt8) : Run Unit :=
  if bs.isEmpty then pure () else modify fun s => { s with printed := (sink, bs) :: s.printed }

/-- Sets the status. -/
def setStatus (n : Nat) : Run Unit := modify fun s => { s with status := n }

/-- Sets a parameter. -/
def assign (name value : String) : Run Unit :=
  modify fun s => { s with settings := (name, value) :: s.settings.filter (·.1 != name) }

/-- Complains about a command, and sets the status. -/
def complain (d : Descriptors) (linesLeft : Nat) (text : String) (status : Nat) : Run Unit := do
  let s ← get
  let line := s.lines - linesLeft + 1
  print d.err (lineBytes (s.name ++ ": " ++ Text.showNat line ++ ": " ++ text))
  setStatus status

/-- Does what a program does. -/
def perform (d : Descriptors) (e : Effect) : Run Unit := do
  print d.out e.stdout
  print d.err e.stderr
  modify fun s => { s with input := e.input, status := e.status }
  match e.lasts with
  | none => throw .hangs
  | some n => modify fun s => { s with clock := s.clock + n }

/-- Runs something in a process of its own: what it sets is lost, and when it
leaves only this process ends. -/
def apart (act : Run Unit) : Run Unit := do
  let before ← get
  set { before with traps := before.traps.filter (·.2 == "") }
  try act catch
    | .leaves | .breaks _ | .continues _ => pure ()
    | stop => throw stop
  modify fun s => { s with
    parameters := before.parameters, settings := before.settings, strict := before.strict
    traps := before.traps }

/-- Takes what was printed into a pipe out of the shell. -/
def takePiped (depth : Nat) : Run (List UInt8) := do
  let s ← get
  let (mine, others) := s.printed.partition (·.1 == .pipe depth)
  set { s with printed := others }
  return mine.reverse.flatMap (·.2)

/-- Leaves a strict shell whose command has failed. -/
def leaveIfStrict (tested : Bool) : Run Unit := do
  let s ← get
  if s.strict && !tested && s.status != 0 then throw .leaves

/-! ### Descriptors -/

/-- Where a descriptor leads. -/
def Descriptors.sink (d : Descriptors) (descriptor : Nat) : Sink :=
  match descriptor with
  | 1 => d.out
  | 2 => d.err
  | _ => .nowhere

/-- Leads a descriptor elsewhere. -/
def Descriptors.lead (d : Descriptors) (descriptor : Nat) (sink : Sink) : Descriptors :=
  match descriptor with
  | 1 => { d with out := sink }
  | 2 => { d with err := sink }
  | _ => d

/-- The descriptors after a redirection.  Nobody looks at a file that was
written, so what is written there is gone. -/
def Descriptors.redirect (d : Descriptors) : Redirection → Descriptors
  | .copy descriptor source => d.lead descriptor (d.sink source)
  | .close descriptor => d.lead descriptor .nowhere
  | .write descriptor file =>
    match file with
    | [.plain text] =>
      if text == "/dev/stdout".toList then d.lead descriptor d.out
      else if text == "/dev/stderr".toList then d.lead descriptor d.err
      else d.lead descriptor .nowhere
    | _ => d.lead descriptor .nowhere
  | .read _ => d

/-- Whether something with these descriptors holds the outputs of the shell. -/
def Descriptors.hold (d : Descriptors) : Bool :=
  [d.out, d.err].any fun s => s != .nowhere

/-! ### Fields -/

/-- The fields of words: those that are complete, and the one that is not. -/
structure Fields where
  complete : List String
  current : Option String

/-- No field yet. -/
def Fields.none : Fields := ⟨[], .none⟩

/-- Adds to the current field. -/
def Fields.add (f : Fields) (s : String) : Fields :=
  { f with current := some (f.current.getD "" ++ s) }

/-- Completes the current field. -/
def Fields.finish (f : Fields) : Fields := ⟨f.complete ++ f.current.toList, .none⟩

/-- Adds a text that blanks cut into fields. -/
def Fields.addCut (f : Fields) (s : String) : Fields :=
  s.toList.foldl (fun f c =>
    if c == ' ' || c == '\t' || c == '\n' then f.finish else f.add (String.singleton c)) f

/-- Adds texts of which each is a field. -/
def Fields.addEach (f : Fields) : List String → Fields
  | [] => f
  | [s] => f.add s
  | s :: rest => (f.add s).finish.addEach rest

/-- The value of a parameter. -/
def State.value (s : State) (name : String) : String :=
  match name with
  | "$" => Text.showNat s.number
  | "?" => Text.showNat s.status
  | "#" => Text.showNat s.parameters.length
  | "!" => (s.companions.head?.map fun c => Text.showNat c.number).getD ""
  | "@" | "*" => " ".intercalate s.parameters
  | "0" => s.name
  | name =>
    match Text.readUpTo (1 <<< 31) name.toList with
    | .ok n => (s.parameters[n - 1]?).getD ""
    | .error _ => (s.settings.lookup name).getD ""

/-- A piece that is not cut into fields. -/
def Piece.uncut : Piece → Piece
  | .plain text => .quoted text
  | .parameter "@" _ => .parameter "*" true
  | .parameter name _ => .parameter name true
  | .output c _ => .output c true
  | piece => piece

/-- Whether a word holds what a command prints. -/
def printsInto (word : List Piece) : Bool :=
  word.any fun
    | .output .. => true
    | _ => false

end DiskWatch.Shell
