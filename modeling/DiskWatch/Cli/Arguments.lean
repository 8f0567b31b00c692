/-
DiskWatch/Cli/Arguments.lean

The arguments of the command line.  A command stands behind the options, and
its own options and operands behind it.  The option for the configuration file
may stand on either side of the command, once on each; behind the command it
counts more.

The arguments are read from left to right, and the first thing that does not
fit is the fault.  A request for help counts as soon as it is met.
-/
import DiskWatch.Path

namespace DiskWatch.Cli

/-- What the program is to do. -/
inductive Command
  | serve
  | check
  | measure (target : String) (json : Bool)
  deriving DecidableEq, Repr

/-- What the arguments ask for. -/
inductive Request
  | help
  | run (file : Path) (command : Command)
  deriving DecidableEq, Repr

/-- Why arguments are refused. -/
inductive ArgumentFault
  | unexpected (argument : String)
  | noValue (option : String)
  | repeated (option : String)
  | noCommand
  | noTarget
  deriving DecidableEq, Repr

/-- The fault in words. -/
def ArgumentFault.message : ArgumentFault → String
  | .unexpected argument => "unexpected argument '" ++ argument ++ "'"
  | .noValue option => "a value is required for '" ++ option ++ "'"
  | .repeated option => "'" ++ option ++ "' cannot be used multiple times"
  | .noCommand => "a command is required"
  | .noTarget => "the name of a target is required"

/-- The configuration file of arguments that name none. -/
def standardFile : Path := ⟨"duwatch.toml"⟩

/-- How the arguments are used. -/
def usage : String := "Usage: duwatch [--config <FILE>] <serve | check | measure <TARGET> [--json]>"

/-! ### Single arguments -/

/-- What an argument is by its form. -/
inductive Form
  | word
  /-- Two hyphens, behind which every argument is a word. -/
  | escape
  /-- The option for the configuration file, with its value if it is attached. -/
  | config (value : Option String)
  | json
  | help
  | unknown
  deriving DecidableEq, Repr

/-- The form of an option with a long name. -/
def longForm (cs : List Char) : Form :=
  let name := cs.takeWhile (· != '=')
  let value := match cs.drop name.length with
    | '=' :: rest => some (String.ofList rest)
    | _ => none
  match String.ofList name, value with
  | "config", value => .config value
  | "json", none => .json
  | "help", none => .help
  | _, _ => .unknown

/-- The form of an option with a short name.  A value is attached with or
without an equals sign. -/
def shortForm : List Char → Form
  | ['c'] => .config none
  | 'c' :: '=' :: rest => .config (some (String.ofList rest))
  | 'c' :: rest => .config (some (String.ofList rest))
  | 'h' :: _ => .help
  | _ => .unknown

/-- The form of an argument.  A hyphen alone is a word. -/
def formOf (argument : String) : Form :=
  match argument.toList with
  | ['-'] => .word
  | ['-', '-'] => .escape
  | '-' :: '-' :: rest => longForm rest
  | '-' :: rest => shortForm rest
  | _ => .word

/-- A value of the option for the configuration file, which must not be empty. -/
def acceptValue (value : String) (rest : List String) :
    Except ArgumentFault (String × List String) :=
  if value.isEmpty then .error (.noValue "--config") else .ok (value, rest)

/-- The value of the option: the attached one, or the next argument if that is a
word. -/
def takeValue (attached : Option String) (rest : List String) :
    Except ArgumentFault (String × List String) :=
  match attached, rest with
  | some value, rest => acceptValue value rest
  | none, next :: rest =>
    if formOf next = .word then acceptValue next rest else .error (.noValue "--config")
  | none, [] => .error (.noValue "--config")

theorem acceptValue_rest {value value' : String} {rest rest' : List String}
    (h : acceptValue value rest = .ok (value', rest')) : rest' = rest := by
  unfold acceptValue at h
  split at h <;> simp_all

theorem takeValue_length {attached : Option String} {rest rest' : List String} {value : String}
    (h : takeValue attached rest = .ok (value, rest')) : rest'.length ≤ rest.length := by
  unfold takeValue at h
  split at h
  · exact Nat.le_of_eq (congrArg List.length (acceptValue_rest h))
  · split at h
    · have := congrArg List.length (acceptValue_rest h)
      simp only [List.length_cons]
      omega
    · simp at h
  · simp at h

/-! ### Behind the command -/

/-- What was read behind the command. -/
structure Tail where
  file : Option String
  operands : List String
  json : Bool
  help : Bool

/-- Nothing read yet. -/
def Tail.none : Tail := ⟨.none, [], false, false⟩

/-- Reads what stands behind a command that takes so many operands, and the
option for JSON or not. -/
def readTail (operands : Nat) (json : Bool) (t : Tail) (arguments : List String) :
    Except ArgumentFault Tail :=
  match arguments with
  | [] => .ok t
  | argument :: rest =>
    match formOf argument with
    | .word =>
      if t.operands.length < operands then
        readTail operands json { t with operands := t.operands ++ [argument] } rest
      else .error (.unexpected argument)
    | .escape =>
      match rest.drop (operands - t.operands.length) with
      | [] => .ok { t with operands := t.operands ++ rest }
      | extra :: _ => .error (.unexpected extra)
    | .config attached =>
      if t.file.isSome then .error (.repeated "--config")
      else
        match h : takeValue attached rest with
        | .error fault => .error fault
        | .ok (value, rest') =>
          have := takeValue_length h
          readTail operands json { t with file := some value } rest'
    | .json =>
      if !json then .error (.unexpected argument)
      else if t.json then .error (.repeated "--json")
      else readTail operands json { t with json := true } rest
    | .help => .ok { t with help := true }
    | .unknown => .error (.unexpected argument)
termination_by arguments.length
decreasing_by all_goals simp only [List.length_cons]; omega

/-! ### All arguments -/

/-- The request of a command and what was read around it. -/
def finish (file : Option String) (t : Tail) (command : Tail → Except ArgumentFault Command) :
    Except ArgumentFault Request :=
  if t.help then .ok .help
  else
    (command t).map fun c =>
      .run (((t.file.or file).map Path.mk).getD standardFile) c

/-- The measurement that was asked for. -/
def measureCommand (t : Tail) : Except ArgumentFault Command :=
  match t.operands with
  | target :: _ => .ok (.measure target t.json)
  | [] => .error .noTarget

/-- Reads the arguments, given the configuration file that was named before. -/
def readArguments (file : Option String) (arguments : List String) :
    Except ArgumentFault Request :=
  match arguments with
  | [] => .error .noCommand
  | argument :: rest =>
    match formOf argument with
    | .word =>
      match argument with
      | "serve" => do finish file (← readTail 0 false .none rest) fun _ => .ok .serve
      | "check" => do finish file (← readTail 0 false .none rest) fun _ => .ok .check
      | "measure" => do finish file (← readTail 1 true .none rest) measureCommand
      | "help" => .ok .help
      | argument => .error (.unexpected argument)
    | .config attached =>
      if file.isSome then .error (.repeated "--config")
      else
        match h : takeValue attached rest with
        | .error fault => .error fault
        | .ok (value, rest') =>
          have := takeValue_length h
          readArguments (some value) rest'
    | .help => .ok .help
    | .escape | .json | .unknown => .error (.unexpected argument)
termination_by arguments.length
decreasing_by all_goals simp only [List.length_cons]; omega

/-- What the arguments ask for. -/
def request (arguments : List String) : Except ArgumentFault Request := readArguments none arguments

end DiskWatch.Cli
