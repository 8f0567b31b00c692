/-
DiskWatch/Main.lean

The command line.  Files, variables and the clock are looked up here and handed
to the library, which decides what they mean.

Programs are not started from here.  The report that a measurement is made of is
read from the standard input, as in `df -k /tmp | duwatch measure root`; while
serving, every call ends with a failure to start.
-/
import DiskWatch.Cli.Plan
import DiskWatch.Daemon

namespace DiskWatch.Main

/-! ### Looking things up -/

/-- The fault that an error of the operating system stands for. -/
def faultOf : IO.Error → HostFault
  | .noFileOrDirectory .. => .missing
  | .permissionDenied .. => .noPermission
  | .inappropriateType .. => .isDirectory
  | _ => .notText

/-- Reads a file. -/
def readFile (file : Path) : IO (Except HostFault String) := do
  try
    return .ok (← IO.FS.readFile file.text)
  catch e =>
    return .error (faultOf e)

/-- Looks at a path. -/
def lookAt (path : Path) : IO PathStatus := do
  try
    let _ ← IO.FS.Handle.mk path.text .read
    return .present
  catch e =>
    match faultOf e with
    | .missing => return .absent
    | .noPermission | .isDirectory => return .present
    | fault => return .unreadable fault.message

/-- The names that a text may use for variables. -/
def namesIn (text : String) : List String :=
  ((Text.pieces (fun c => !(c.isAlphanum || c == '_' || c == '.')) text.toList).filter
    (!·.isEmpty)).map String.ofList

/-- Looks up the variables that the program and its file of variables speak of. -/
def lookUpVariables (file : Except HostFault String) : IO Environment := do
  let names := match file with
    | .ok text => namesIn text
    | .error _ => []
  (names ++ ["DUWATCH_OTEL_ENDPOINT", "DUWATCH_LOG_LEVEL"]).foldlM (fun env name => do
    match ← IO.getEnv name with
    | some value => return env.set name value
    | none => return env) Environment.empty

/-! ### Commands -/

/-- Prints an outcome and gives back its code. -/
def conclude (o : Cli.Outcome) : IO UInt32 := do
  IO.print o.stdout
  IO.eprint o.stderr
  return o.code.toUInt32

/-- Measures a target by the report at the standard input. -/
def measureTarget (t : Target) (policy : RetryPolicy) (json : Bool) : IO UInt32 := do
  let status ← lookAt t.kind.path
  let report ← (← IO.getStdin).readToEnd
  let surroundings : Surroundings := ⟨fun _ => status, fun _ => .zero, fun _ _ => .ok report⟩
  let conditions : Activity.Conditions := ⟨.standard, surroundings, none, true, none⟩
  let (result, _) := (Measurement.take policy t.kind t.timeout).run conditions .start
  conclude (Cli.measurementOutcome t json result)

/-- An event as a line of the log. -/
def logLine (e : Event) : String :=
  " ".intercalate ([e.level.name, e.message] ++ e.fields.map fun f => f.1 ++ "=" ++ f.2)

/-- Lets the daemon run in steps of a tenth of a second, and prints what is new
in its log. -/
partial def runDaemon (w : World) (printed : Nat) : IO Unit := do
  let w := w.advance (.ofMillis 100)
  let events := w.collector.telemetry.events
  for e in events.drop printed do
    IO.println (logLine e)
  (← IO.getStdout).flush
  IO.sleep 100
  runDaemon w events.length

/-- Serves a configuration until the program is ended. -/
def serve (c : Config) : IO UInt32 := do
  let statuses ← c.targets.mapM fun t => do return (t.kind.path, ← lookAt t.kind.path)
  let surroundings : Surroundings :=
    { look := fun p => (statuses.lookup p).getD .absent
      delay := fun _ => .zero
      result := fun _ call => .error (.notStarted call.program "programs are not started here") }
  let settings : Settings :=
    ⟨⟨.standard, c.retryPolicy, Daemon.watchdogPoll, Daemon.watchdogGrace⟩, surroundings,
      fun _ => .zero, true⟩
  match Daemon.queues? c with
  | none => conclude (Cli.failure "the queues cannot be built" none)
  | some queues =>
    runDaemon (Daemon.start c (Daemon.idle settings queues)) 0
    return 0

end DiskWatch.Main

open DiskWatch Main in
/-- Runs the program. -/
def main (arguments : List String) : IO UInt32 := do
  let settings ← readFile Cli.environmentFile
  let env ← lookUpVariables settings
  let file := match Cli.request arguments with
    | .ok (.run file _) => file
    | _ => Cli.standardFile
  let document ← readFile file
  let readText (p : Path) : Except HostFault String :=
    if p = Cli.environmentFile then settings else document
  match Cli.plan readText env arguments with
  | .ended o => conclude o
  | .measures t policy json => measureTarget t policy json
  | .serves c => serve c
