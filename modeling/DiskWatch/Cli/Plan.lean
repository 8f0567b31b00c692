/-
DiskWatch/Cli/Plan.lean

From the arguments to what is to be done.  The variables of the file `.env` are
set, the arguments are read, and the configuration is loaded; what goes wrong on
the way is the outcome.  What is left to do then is nothing, one measurement, or
to run until a shutdown is requested.
-/
import DiskWatch.Alone
import DiskWatch.Cli.Arguments
import DiskWatch.Cli.Show
import DiskWatch.Config.Load
import DiskWatch.Environment.File
import DiskWatch.Telemetry.Endpoint

namespace DiskWatch.Cli

/-- What the program leaves behind. -/
structure Outcome where
  code : UInt8
  stdout : String
  stderr : String
  deriving DecidableEq, Repr

/-- What is to be done. -/
inductive Plan
  | ended (o : Outcome)
  | measures (target : Target) (policy : RetryPolicy) (json : Bool)
  | serves (config : Config)

/-! ### Outcomes -/

/-- The outcome of a success. -/
def success (stdout : String) : Outcome := ⟨0, stdout, ""⟩

/-- The outcome of a failure, with what lies beneath it. -/
def failure (message : String) (cause : Option String) : Outcome :=
  let beneath := match cause with
    | some text => "\n\nCaused by:\n    " ++ text
    | none => ""
  ⟨1, "", "Error: " ++ message ++ beneath ++ "\n"⟩

/-- The outcome of an error. -/
def failed (e : Error) : Outcome := failure e.message e.cause?

/-- The outcome of arguments that are refused. -/
def refused (fault : ArgumentFault) : Outcome :=
  ⟨2, "", "error: " ++ fault.message ++ "\n\n" ++ usage ++ "\n"⟩

/-- The outcome of a measurement. -/
def measurementOutcome (t : Target) (json : Bool) : Except Error Measurement → Outcome
  | .ok m => success (measured t json m)
  | .error e => failed e

/-! ### Plans -/

/-- The file whose variables are set at the start. -/
def environmentFile : Path := ⟨".env"⟩

/-- The environment with the variables of the file, if it can be read. -/
def fullEnvironment (readText : Path → Except HostFault String) (env : Environment) : Environment :=
  match readText environmentFile with
  | .ok text => env.withFile text
  | .error _ => env

/-- What serving a configuration comes to.  An address that telemetry cannot be
sent to ends it at once. -/
def servePlan (c : Config) : Plan :=
  match c.endpoint with
  | none | some "" => .serves c
  | some address =>
    match Endpoint.check address with
    | .ok () => .serves c
    | .error fault =>
      .ended (failed (.other ("failed to create OTLP span exporter: invalid URI " ++ address ++
        ". Reason " ++ fault.message)))

/-- What a command comes to with a configuration. -/
def commandPlan (c : Config) : Command → Plan
  | .serve => servePlan c
  | .check => .ended (success (schedule c))
  | .measure name json =>
    match c.target? name with
    | some t => .measures t c.retryPolicy json
    | none => .ended (failure ("no target named '" ++ name ++ "'") none)

/-- What the arguments come to. -/
def plan (readText : Path → Except HostFault String) (env : Environment)
    (arguments : List String) : Plan :=
  match request arguments with
  | .error fault => .ended (refused fault)
  | .ok .help => .ended (success (usage ++ "\n"))
  | .ok (.run file command) =>
    match Config.load readText (fullEnvironment readText env) file with
    | .error fault => .ended (failed (.config fault))
    | .ok c => commandPlan c command

/-! ### Laws -/

/-- A failure has the exit code one. -/
theorem failure_code (message : String) (cause : Option String) :
    (failure message cause).code = 1 := rfl

/-- Arguments that are refused are refused whatever the files and variables. -/
theorem plan_of_refused {arguments : List String} {fault : ArgumentFault}
    (h : request arguments = .error fault) (readText : Path → Except HostFault String)
    (env : Environment) : plan readText env arguments = .ended (refused fault) := by
  simp [plan, h]

end DiskWatch.Cli
