/-
DiskWatch/Shell/Run.lean

Running commands and programs on a host.  Commands change the shell one after
the other; what would run side by side is run in turn, each part from the same
instant, and the later end counts.

`step` runs one command by means of a way to run the commands within it, and
`run` repeats it.  A script is used up long before the count of `run` is; only
a script that calls the shell for ever meets its end, and a loop that goes round
too often is taken for one that never ends.
-/
import DiskWatch.Launch
import DiskWatch.Shell.Builtin
import DiskWatch.Shell.Reader
import DiskWatch.Shell.Utility

namespace DiskWatch.Shell

/-- The machine that programs run on. -/
structure Machine where
  host : Host
  searchPath : List String

/-- A way to run commands; a command is `tested` if its status decides about
another one. -/
abbrev Runner := (tested : Bool) → Descriptors → Command → Run Unit

/-! ### Words -/

/-- The value of an expression; one that has none ends the shell. -/
def evaluate (d : Descriptors) (text : List Char) : Run Int := do
  match calculate (← get).value text with
  | .ok n => return n
  | .error fault =>
    complain d (← get).lines (fault.message (String.ofList text)) 2
    throw .leaves

/-- Adds a piece of a word to the fields. -/
def expandPiece (inner : Runner) (d : Descriptors) (f : Fields) : Piece → Run Fields
  | .plain text | .quoted text => return f.add (String.ofList text)
  | .parameter "@" true => return f.addEach (← get).parameters
  | .parameter name true => return f.add ((← get).value name)
  | .parameter name false => return f.addCut ((← get).value name)
  | .arithmetic text => return f.add (Text.showInt (← evaluate d text))
  | .output c quoted => do
    apart (inner false { d with out := .pipe d.depth, depth := d.depth + 1 } c)
    let text := Text.decodeLossy ((← takePiped d.depth).filter (· != 0))
    let text := String.ofList (Text.dropEndWhile (· == '\n') text.toList)
    return if quoted then f.add text else f.addCut text

/-- The fields of words. -/
def expand (inner : Runner) (d : Descriptors) (words : List (List Piece)) : Run (List String) := do
  let f ← words.foldlM (fun f word => do
    return (← word.foldlM (expandPiece inner d) f).finish) Fields.none
  return f.complete

/-- The text of a word that is one field. -/
def expandText (inner : Runner) (d : Descriptors) (word : List Piece) : Run String := do
  return "".intercalate (← expand inner d [word.map Piece.uncut])

/-! ### Scripts -/

/-- What a shell is asked to run. -/
inductive Request
  | script (text name : String) (parameters : List String) (strict : Bool)
  | refused (text : String)

/-- What the arguments of a shell ask for: flags, a script or its file, a name
and parameters. -/
def request (host : Host) (name : String) (input : Feed) (strict : Bool) :
    List String → Request
  | [] => .script (Text.decodeLossy input.bytes) name [] strict
  | first :: rest =>
    match first.toList with
    | '-' :: c :: flags =>
      let strict := strict || (c :: flags).contains 'e'
      if (c :: flags).contains 'c' then
        match rest with
        | [] => .refused (name ++ ": 0: -c requires an argument")
        | text :: rest => .script text (rest.headD name) rest.tail strict
      else request host name input strict rest
    | _ => match host.readText ⟨first⟩ with
      | .ok text => .script text first rest strict
      | .error _ => .refused (name ++ ": 0: cannot open " ++ first ++ ": No such file")

/-- Runs the text of a script. -/
def runScript (inner : Runner) (d : Descriptors) (text : String) : Run Unit := do
  match readScript text with
  | .ok c => inner false d c
  | .error fault =>
    let s ← get
    complain d s.lines ("Syntax error: " ++ fault.message) 2

/-- Does what is to be done for signals that came; the status stays. -/
def runCaught (inner : Runner) (d : Descriptors) : Run Unit := do
  let s ← get
  if !s.caught.isEmpty then
    set { s with caught := [] }
    for action in s.caught do
      runScript inner d action
      setStatus s.status

/-- Runs a script and then what is to be done at its end. -/
def runToEnd (inner : Runner) (d : Descriptors) (text : String) : Run Unit := do
  try runScript inner d text catch
    | .leaves => pure ()
    | stop => throw stop
  let s ← get
  match s.traps.lookup 0 with
  | none => pure ()
  | some action =>
    set { s with traps := s.traps.filter (·.1 != 0) }
    runScript inner d action
    setStatus s.status

/-- Becomes the shell that the arguments ask for, under a number, and runs its
script. -/
def enter (host : Host) (inner : Runner) (d : Descriptors) (number : Nat) (name : String)
    (arguments : List String) : Run Unit := do
  let s ← get
  match request host name s.input false arguments with
  | .refused text => perform d (.complaining text 2 s.input)
  | .script text name parameters strict =>
    set { s with
      name := name, parameters := parameters, number := number
      lines := text.toList.count '\n', status := 0, strict := strict
      settings := s.settings.filter (s.exported.contains ·.1) }
    runToEnd inner d text

/-- Runs a shell within the shell. -/
def runShell (host : Host) (inner : Runner) (d : Descriptors) (name : String)
    (arguments : List String) : Run Unit := do
  let s ← get
  try apart (enter host inner d (s.number + 1) name arguments) catch
    | .dies number signal =>
      if number = s.number + 1 then setStatus (128 + signal) else throw (.dies number signal)
    | stop => throw stop
  modify fun after => { after with
    name := s.name, parameters := s.parameters, number := s.number
    lines := s.lines, settings := s.settings, strict := s.strict, traps := s.traps }

/-! ### Simple commands -/

/-- Runs a program that is no builtin; `about` is how the shell speaks of one
that it cannot run. -/
def launch (m : Machine) (inner : Runner) (d : Descriptors) (linesLeft : Nat) (about name : String)
    (arguments : List String) : Run Unit := do
  match m.host.findProgram m.searchPath name with
  | .error .noPermission => complain d linesLeft (about ++ ": Permission denied") 126
  | .error _ => complain d linesLeft (about ++ ": not found") 127
  | .ok "sh" => runShell m.host inner d name arguments
  | .ok program =>
    match utility? m.host program arguments (← get).input with
    | some e => perform d e
    | none => complain d linesLeft (about ++ ": not found") 127

/-- Runs a builtin or a program. -/
def call (m : Machine) (inner : Runner) (d : Descriptors) (linesLeft : Nat) (name : String)
    (arguments : List String) : Run Unit :=
  match builtin? ⟨m.host, d, linesLeft⟩ name arguments with
  | some act => act
  | none =>
    if name == "eval" then runScript inner d (" ".intercalate arguments)
    else launch m inner d linesLeft name name arguments

/-- Runs a command with an input of its own, if it has a redirection for it. -/
def withInput (m : Machine) (inner : Runner) (d : Descriptors) (linesLeft : Nat)
    (rs : List Redirection) (act : Run Unit) : Run Unit := do
  let file := rs.findSome? fun
    | .read file => some file
    | _ => none
  match file with
  | none => act
  | some file =>
    let name ← expandText inner d file
    match feedAt m.host name with
    | .error _ => complain d linesLeft ("cannot open " ++ name ++ ": No such file") 2
    | .ok feed =>
      let input := (← get).input
      modify fun s => { s with input := feed }
      act
      modify fun s => { s with input := input }

/-- Runs a simple command. -/
def runSimple (m : Machine) (inner : Runner) (d : Descriptors) (linesLeft : Nat)
    (settings : List (String × List Piece)) (words : List (List Piece)) (rs : List Redirection) :
    Run Unit := do
  let fields ← expand inner d words
  let d' := rs.foldl Descriptors.redirect d
  let assignAll : Run Unit := settings.forM fun (name, word) => do
    assign name (← expandText inner d word)
  match fields with
  | [] =>
    if !(words.any printsInto || settings.any fun s => printsInto s.2) then setStatus 0
    assignAll
  | ["exec"] => setStatus 0
  | "exec" :: name :: arguments =>
    modify fun s => { s with traps := s.traps.filter (·.2 == "") }
    withInput m inner d linesLeft rs (launch m inner d' linesLeft ("exec: " ++ name) name arguments)
    throw .leaves
  | name :: arguments =>
    if settings.isEmpty then
      withInput m inner d linesLeft rs (call m inner d' linesLeft name arguments)
    else
      let before ← get
      assignAll
      modify fun s => { s with exported := settings.map (·.1) ++ s.exported }
      withInput m inner d linesLeft rs (call m inner d' linesLeft name arguments)
      modify fun s => { s with settings := before.settings, exported := before.exported }

/-! ### Commands side by side -/

/-- Runs two commands of which the second reads what the first prints.  If the
first would go on for ever, the second decides how long. -/
def runPipe (inner : Runner) (tested : Bool) (d : Descriptors) (first second : Command) :
    Run Unit := do
  let before ← get
  let ending ← try
    apart (inner tested { d with out := .pipe d.depth, depth := d.depth + 1 } first)
    pure (some (← get).clock)
  catch
    | .hangs => pure none
    | stop => throw stop
  let piped ← takePiped d.depth
  let left := (← get).input
  modify fun s => { s with input := ⟨piped, ending.isNone⟩, clock := before.clock }
  apart (inner tested d second)
  modify fun s => { s with
    input := left, clock := max s.clock (ending.getD s.clock), traps := before.traps }

/-- Starts a command and goes on without it. -/
def runBackground (inner : Runner) (tested : Bool) (d : Descriptors) (c : Command) : Run Unit := do
  let before ← get
  set { before with input := .empty }
  let ending ← try
    apart (inner tested d c)
    pure (some (← get).clock)
  catch
    | .hangs => pure none
    | stop => throw stop
  let s ← get
  let companion : Companion :=
    { number := before.number + 1 + s.companions.length
      ends := ending
      status := s.status
      holds := (c.redirections.foldl Descriptors.redirect d).hold }
  set { s with
    input := before.input, clock := before.clock, status := 0, traps := before.traps
    companions := companion :: s.companions }

/-! ### Loops -/

/-- Runs one round of a loop; the answer is whether the loop goes on. -/
def oneRound (body : Run Unit) : Run Bool :=
  try do
    body
    return true
  catch
    | .breaks 0 => return false
    | .breaks (n + 1) => throw (.breaks n)
    | .continues 0 => return true
    | .continues (n + 1) => throw (.continues n)
    | stop => throw stop

/-- How often a loop goes round before it is taken to go round for ever. -/
def roundLimit : Nat := 200000

/-- Goes round as long as the answer of a round is that there is more, and then
sets the status to that of the last round. -/
def goRound (round : Run (Option Nat)) : Nat → Nat → State → Except Stop Unit × State
  | 0, _, s => (.error .hangs, s)
  | n + 1, last, s =>
    match round.run.run s with
    | (.ok (some status), s) => goRound round n status s
    | (.ok none, s) => (.ok (), { s with status := last })
    | (.error stop, s) => (.error stop, s)

/-- Runs a command as long as a test gives the wanted answer. -/
def runLoop (inner : Runner) (tested : Bool) (d : Descriptors) (wanted : Bool)
    (test body : Command) : Run Unit :=
  let round : Run (Option Nat) := do
    inner true d test
    if ((← get).status == 0) == wanted then
      let more ← oneRound (inner tested d body)
      let status := (← get).status
      return if more then some status else none
    else return none
  ExceptT.mk (StateT.mk fun s => goRound round roundLimit 0 s)

/-- Runs a command for each of some fields. -/
def runEach (inner : Runner) (tested : Bool) (d : Descriptors) (name : String) (body : Command) :
    List String → Run Unit
  | [] => pure ()
  | field :: fields => do
    assign name field
    if ← oneRound (inner tested d body) then runEach inner tested d name body fields

/-! ### All commands -/

/-- Runs one command. -/
def step (m : Machine) (inner : Runner) : Runner := fun tested d c => do
  match c with
  | .nothing => pure ()
  | .simple linesLeft settings words rs =>
    runSimple m inner d linesLeft settings words rs
    runCaught inner d
    leaveIfStrict tested
  | .group own c rs =>
    let d := rs.foldl Descriptors.redirect d
    withInput m inner d 0 rs (if own then apart (inner tested d c) else inner tested d c)
    leaveIfStrict tested
  | .pipe first second =>
    runPipe inner tested d first second
    leaveIfStrict tested
  | .negated c =>
    inner true d c
    modify fun s => { s with status := if s.status = 0 then 1 else 0 }
  | .both first second =>
    inner true d first
    if (← get).status = 0 then inner tested d second
  | .either first second =>
    inner true d first
    if (← get).status != 0 then inner tested d second
  | .sequence first second =>
    inner tested d first
    inner tested (((first.rebinds?).getD []).foldl Descriptors.redirect d) second
  | .background c => runBackground inner tested d c
  | .branch test yes no =>
    inner true d test
    if (← get).status = 0 then inner tested d yes
    else
      setStatus 0
      inner tested d no
  | .loop wanted test body => runLoop inner tested d wanted test body
  | .each name words body =>
    let parameters := (← get).parameters
    let fields ← match words with
      | some words => expand inner d words
      | none => pure parameters
    setStatus 0
    runEach inner tested d name body fields

/-- Runs commands that lie within each other at most as deep as the count. -/
def run (m : Machine) : Nat → Runner
  | 0 => fun _ _ _ => throw .hangs
  | fuel + 1 => fun tested d c => step m (run m fuel) tested d c

/-! ### Processes -/

/-- How deep commands may lie within each other. -/
def depthLimit : Nat := 10000

/-- A shell before it runs anything. -/
def State.start : State := ⟨"", [], 1000, 0, [], [], 0, false, [], [], .empty, [], 0, []⟩

/-- What was printed to a sink, in order. -/
def State.printedTo (s : State) (sink : Sink) : List UInt8 :=
  (s.printed.filter (·.1 == sink)).reverse.flatMap (·.2)

/-- The later of two instants, of which one may never come. -/
def later? (a b : Option Nat) : Option Nat := do return max (← a) (← b)

/-- When nothing holds the outputs of the shell any more. -/
def State.outputsEnd (s : State) : Option Nat :=
  (s.companions.filter (·.holds)).foldl (fun t c => later? t c.ends) (some s.clock)

/-- The process that a shell was, after its end. -/
def State.process (s : State) : Option Stop → Launch
  | some .hangs => .endless
  | some (.dies _ signal) => finished (.signalled signal)
  | some _ | none => finished (.exited s.status)
where
  /-- The process with its output, once nothing holds it any more. -/
  finished (ending : Ending) : Launch :=
    match s.outputsEnd with
    | none => .endless
    | some t => .ends (.clamp t) ⟨ending, s.printedTo .stdout, s.printedTo .stderr⟩

/-- Starts a program with an empty input. -/
def Machine.start (m : Machine) (program : String) (arguments : List String) : Launch :=
  if (program :: arguments).any fun s => s.toList.contains '\x00' then
    .notStarted "nul byte found in provided data"
  else match m.host.findProgram m.searchPath program with
    | .error fault => .notStarted fault.message
    | .ok found =>
      let inner := run m depthLimit
      let d : Descriptors := ⟨.stdout, .stderr, 0⟩
      let s := State.start
      let act := if found == "sh" then enter m.host inner d s.number program arguments
        else launch m inner d 0 program program arguments
      match act.run s with
      | (.ok (), s) => s.process none
      | (.error stop, s) => s.process (some stop)

end DiskWatch.Shell
