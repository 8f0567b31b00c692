/-
DiskWatch/Shell/Builtin.lean

The builtins of the shell: commands that change the shell itself, and those
that it does not start a program for.
-/
import DiskWatch.Shell.Condition
import DiskWatch.Shell.Printing
import DiskWatch.Shell.Signal
import DiskWatch.Shell.State

namespace DiskWatch.Shell

/-- The place of a builtin: where it prints, and how to complain in its name. -/
structure Site where
  host : Host
  descriptors : Descriptors
  linesLeft : Nat

/-- Complains. -/
def Site.complain (p : Site) (text : String) (status : Nat) : Run Unit :=
  Shell.complain p.descriptors p.linesLeft text status

/-! ### Signals -/

/-- A signal comes to the shell itself. -/
def receive (signal : Nat) : Run Unit := do
  let s ← get
  match if signal = 9 || signal = 19 then none else s.traps.lookup signal with
  | some action =>
    if action != "" then set { s with caught := s.caught ++ [action] }
  | none =>
    match disposition signal with
    | .ignored => pure ()
    | .stops => throw .hangs
    | .ends => throw (.dies s.number signal)

/-- Sends a signal to processes. -/
def kill (p : Site) (arguments : List String) : Run Unit := do
  match killArguments arguments with
  | none => p.complain "kill: Usage: kill [-s sigspec | -signum] pid" 2
  | some (signal, targets) =>
    setStatus 0
    for target in targets do
      let s ← get
      let runs (c : Companion) : Bool :=
        target == Text.showNat c.number && c.ends.all (s.clock < ·)
      if target == "0" || target == Text.showNat s.number then receive signal
      else if s.companions.any runs then
        if disposition signal == .ends then
          let stopped (c : Companion) : Companion :=
            { c with ends := some s.clock, status := 128 + signal }
          let companions := s.companions.map fun c => if runs c then stopped c else c
          set { s with companions := companions }
      else p.complain "kill: No such process" 1

/-- Sets what is to be done on signals. -/
def trap (p : Site) (arguments : List String) : Run Unit := do
  setStatus 0
  match arguments with
  | [] => pure ()
  | action :: names =>
    for name in names do
      match if name == "EXIT" then some 0 else signal? name with
      | none => p.complain ("trap: " ++ name ++ ": bad trap") 1
      | some signal =>
        modify fun s => { s with
          traps := (if action == "-" then [] else [(signal, action)]) ++
            s.traps.filter (·.1 != signal) }

/-! ### Ends -/

/-- Leaves the shell with a status. -/
def leave (p : Site) (arguments : List String) : Run Unit := do
  match arguments with
  | [] => pure ()
  | a :: _ =>
    match Text.readUpTo ((1 <<< 31) - 1) a.toList with
    | .ok n => setStatus (n % 256)
    | .error _ => p.complain ("exit: Illegal number: " ++ a) 2
  throw .leaves

/-- The number of loops that an argument asks for, less one. -/
def furtherLoops (arguments : List String) : Nat :=
  ((Text.readUpTo 1000 ((arguments.headD "1").toList)).toOption.getD 1) - 1

/-- Waits for a command in the background. -/
def waitFor (c : Companion) : Run Unit := do
  match c.ends with
  | none => throw .hangs
  | some t => modify fun s => { s with clock := max s.clock t, status := c.status }

/-- Waits for commands in the background, or for all of them. -/
def wait (arguments : List String) : Run Unit := do
  let s ← get
  if arguments.isEmpty then
    for c in s.companions do waitFor c
    setStatus 0
  else
    for number in arguments do
      match s.companions.find? fun c => Text.showNat c.number == number with
      | some c => waitFor c
      | none => setStatus 127

/-! ### Settings -/

/-- Makes the shell strict or not, or gives it other parameters. -/
def setOptions (arguments : List String) : Run Unit := do
  setStatus 0
  match arguments with
  | "--" :: rest => modify fun s => { s with parameters := rest }
  | first :: _ =>
    match first.toList with
    | '-' :: flags => if flags.contains 'e' then modify fun s => { s with strict := true }
    | '+' :: flags => if flags.contains 'e' then modify fun s => { s with strict := false }
    | _ => modify fun s => { s with parameters := arguments }
  | [] => pure ()

/-- Lets the shells within the shell see settings, some of which are made here. -/
def exportAll (arguments : List String) : Run Unit := do
  setStatus 0
  for a in arguments do
    match Text.cutAt (· == '=') a.toList with
    | some (name, value) =>
      let name := String.ofList name
      assign name (String.ofList value)
      modify fun s => { s with exported := name :: s.exported }
    | none => modify fun s => { s with exported := a :: s.exported }

/-- Gives the words of a line to parameters, the last of which takes the rest. -/
def assignWords : List String → List Char → Run Unit
  | [], _ => pure ()
  | [name], cs => assign name (String.ofList (Text.trim cs))
  | name :: names, cs => do
    let cs := Text.trimStart cs
    let word := cs.takeWhile fun c => !Text.isBlank c
    assign name (String.ofList word)
    assignWords names (cs.drop word.length)

/-- Reads a line of the input into parameters. -/
def readLine (arguments : List String) : Run Unit := do
  let s ← get
  let line := s.input.bytes.takeWhile (· != 10)
  let rest := s.input.bytes.drop line.length
  set { s with
    input := { s.input with bytes := rest.drop 1 }
    status := if rest.isEmpty then 1 else 0 }
  let names := arguments.filter fun a => !a.startsWith "-"
  assignWords names (Text.decodeLossy line).toList

/-- Goes to another directory. -/
def changeDirectory (p : Site) (arguments : List String) : Run Unit := do
  match arguments with
  | [] => setStatus 0
  | directory :: _ =>
    match p.host.find ⟨directory⟩ with
    | .ok (_, .directory) => setStatus 0
    | _ => p.complain ("cd: can't cd to " ++ directory) 2

/-- Tests a condition, which may stand in a bracket. -/
def test (p : Site) (bracket : Bool) (arguments : List String) : Run Unit := do
  match conditionHolds p.host bracket arguments with
  | .ok b => setStatus (if b then 0 else 1)
  | .error fault => p.complain ((if bracket then "[" else "test") ++ ": " ++ fault.message) 2

/-! ### All builtins -/

/-- The builtin of a name, if there is one. -/
def builtin? (p : Site) (name : String) (arguments : List String) : Option (Run Unit) :=
  match name with
  | ":" | "true" => some (setStatus 0)
  | "false" => some (setStatus 1)
  | "echo" => some do perform p.descriptors (echoHere arguments (← get).input)
  | "printf" => some do
    match printf? arguments (← get).input with
    | some e => perform p.descriptors e
    | none => p.complain "printf: usage: printf format [arg ...]" 2
  | "test" => some (test p false arguments)
  | "[" => some (test p true arguments)
  | "read" => some (readLine arguments)
  | "cd" => some (changeDirectory p arguments)
  | "exit" | "return" => some (leave p arguments)
  | "break" => some (throw (.breaks (furtherLoops arguments)))
  | "continue" => some (throw (.continues (furtherLoops arguments)))
  | "kill" => some (kill p arguments)
  | "trap" => some (trap p arguments)
  | "wait" => some (wait arguments)
  | "set" => some (setOptions arguments)
  | "export" => some (exportAll arguments)
  | "unset" =>
    some (modify fun s => { s with
      settings := s.settings.filter (!arguments.contains ·.1), status := 0 })
  | "shift" => some (modify fun s => { s with parameters := s.parameters.tail, status := 0 })
  | _ => none

end DiskWatch.Shell
