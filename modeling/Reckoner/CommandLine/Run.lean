import Reckoner.CommandLine.Arguments
import Reckoner.CommandLine.HealthCheck
import Reckoner.CommandLine.Prompt
import Reckoner.Log.Journal

/-!
A run of the program: the arguments decide what is set, logged and printed. Faulty arguments and a
call for help leave settings and logging alone.
-/
namespace Reckoner.CommandLine

structure Surroundings extends Log.Context where
  /-- The version of the arithmetic that the health check names. -/
  numericsVersion : String
  /-- How many factors there is room for on the stack of a caller. -/
  stack : Caller → Nat

structure State where
  settings : Settings
  journal : Log.Journal

/-- Why a run breaks off without an exit code. Two of the causes are flags that were emptied. -/
inductive Breakdown where
  | logging (fault : Log.SetupFault)
  | emptyLogLevel
  | emptyLogFormat
  | limit (fault : LimitFault)
  deriving DecidableEq, Repr

def Breakdown.message : Breakdown → String
  | logging fault => fault.message
  | emptyLogLevel => "'list' object has no attribute 'upper'"
  | emptyLogFormat => "unhashable type: 'list'"
  | limit fault => fault.message

/-- What a run leaves: its exit code unless it broke off, what it wrote to either stream, the values
that it evaluated, and the state. What was answered before the run broke off does not count. -/
structure Outcome where
  exit : Except Breakdown Nat
  output : String
  errors : String
  evaluated : List Value
  state : State

def Request.override (request : Request) (settings : Settings) : Settings :=
  { settings with
    outputPrecision := request.precision.getD settings.outputPrecision
    maxNestingDepth := request.maxDepth.getD settings.maxNestingDepth }

def Request.overrideEvents (request : Request) : List Log.Event :=
  let event (what : String) (value : Option Int) : Log.Event :=
    { level := .debug, source := Log.sourceNamed "cli", template := what ++ " set to %d",
      arguments := [.ofSetting value] }
  (request.precision.map (event "Output precision")).toList ++
    (request.maxDepth.map (event "Maximum nesting depth")).toList

/-- The logging that a request sets up. The level is looked at before the format. -/
def Request.logSetup (request : Request) : Except Breakdown Log.Setup :=
  match request.logLevel, request.logFormat with
  | none, _ => .error .emptyLogLevel
  | some _, none => .error .emptyLogFormat
  | some level, some format => .ok ⟨level, request.logFile.filter (· ≠ ""), format⟩

/-- What an expression flag hands in for evaluation: its text, or the empty list in place of it. -/
def handedIn : Option String → Value
  | some expression => .text expression
  | none => .list []

def Request.caller (request : Request) : Caller :=
  if request.healthCheck then .healthCheck
  else if request.expression.isSome then .oneShot
  else .prompt

def Request.evaluated (request : Request) (typed : List (Option String)) : List Value :=
  if request.version then []
  else if request.healthCheck then HealthCheck.expressions.map .text
  else
    match request.expression with
    | some given => [handedIn given]
    | none => (Prompt.expressions typed).map .text

/-- What a request does without a prompt: exit code and output, with its events. There is nothing
if the request opens the prompt. -/
def Request.perform? (request : Request) (bounds : Bounds) (precision : Option Int)
    (numericsVersion : String) : Option (Nat × Logged String) :=
  if request.version then some (0, ⟨programVersion ++ "\n", []⟩)
  else if request.healthCheck then
    let made := HealthCheck.checks bounds precision numericsVersion
    some (if made.all (·.passed) then 0 else 1,
      ⟨HealthCheck.report made, made.flatMap (·.events)⟩)
  else
    request.expression.map fun given =>
      let answer := Answer.evaluate bounds (handedIn given)
      (if answer.value.ok then 0 else 1,
        ⟨answer.value.printed precision request.format (given.getD ""), answer.events⟩)

def Request.perform (request : Request) (bounds : Bounds) (precision : Option Int)
    (numericsVersion : String) (typed : List (Option String)) : Nat × Logged String :=
  (request.perform? bounds precision numericsVersion).getD
    (0, Prompt.session bounds precision request.format typed)

/-- Carries out a request. Logging is set up first, then the settings are replaced, then the request
is performed; nothing is replaced if logging cannot be set up. -/
def Request.carryOut (request : Request) (surroundings : Surroundings) (state : State)
    (typed : List (Option String)) : Outcome :=
  match request.logSetup with
  | .error cause => ⟨.error cause, "", "", [], state⟩
  | .ok setup =>
    match state.journal.install surroundings.opens setup with
    | (.error fault, journal) => ⟨.error (.logging fault), "", "", [], { state with journal }⟩
    | (.ok (), journal) =>
      let settings := request.override state.settings
      let values := request.evaluated typed
      match settings.boundsFor (surroundings.stack request.caller) values with
      | .ok bounds =>
        let (exit, done) := request.perform bounds settings.outputPrecision
          surroundings.numericsVersion typed
        let (errors, journal) :=
          journal.logAll surroundings.toContext (request.overrideEvents ++ done.events)
        ⟨.ok exit, done.value, errors, values, ⟨settings, journal⟩⟩
      | .error fault =>
        let (errors, journal) := journal.logAll surroundings.toContext request.overrideEvents
        ⟨.error (.limit fault), "", errors, [], ⟨settings, journal⟩⟩

def run (surroundings : Surroundings) (state : State) (arguments : List String)
    (typed : List (Option String)) : Outcome :=
  match parse arguments with
  | .error .help => ⟨.ok 0, helpText, "", [], state⟩
  | .error (.fault cause) => ⟨.ok 2, "", cause.complaint, [], state⟩
  | .ok request => request.carryOut surroundings state typed

end Reckoner.CommandLine
