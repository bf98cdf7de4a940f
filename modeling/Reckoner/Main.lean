import Reckoner.CommandLine.Run
import Reckoner.Environment
import Reckoner.Log.Timestamp
import Std.Time.DateTime.Timestamp

/-! The program: arguments, environment and typed lines go to the library, answers are written. -/
namespace Reckoner.Program

open CommandLine

def now : IO String := do
  let instant ← Std.Time.Timestamp.now
  return (Log.Timestamp.ofMilliseconds instant.toMillisecondsSinceUnixEpoch.val).toOption.getD ""

def canAppend (file : String) : IO Bool := do
  try
    let _ ← IO.FS.Handle.mk file .append
    return true
  catch _ => return false

def numericsVersion : String := "binary64"

def complaint (event : Log.Event) (fault : Log.Template.Fault) : String :=
  "--- Logging error ---\n" ++ fault.message ++ "\nMessage: " ++ Text.quoted event.template ++ "\n"

def stack : Nat := 1000

def surroundings (opens : String → Option String) : IO Surroundings :=
  return ⟨⟨← now, opens, complaint⟩, numericsVersion, fun _ => stack⟩

def writeLogs (errors : String) (files : List (String × String)) : IO Unit := do
  IO.eprint errors
  for (file, content) in files do
    let handle ← IO.FS.Handle.mk file .append
    handle.putStr content

def flushed (state : State) : State := { state with journal := { state.journal with files := [] } }

/-- A typed line without its line break; nothing at the end of the input. -/
def typedLine : IO (Option String) := do
  let line ← (← IO.getStdin).getLine
  return if line.isEmpty then none else some (line.dropEndWhile (· = '\n')).toString

def breakOff (cause : Breakdown) : IO UInt32 := do
  IO.eprintln cause.message
  return 1

partial def converse (opens : String → Option String) (format : OutputFormat) (state : State) :
    IO UInt32 := do
  IO.print Prompt.invitation
  (← IO.getStdout).flush
  match ← typedLine with
  | none =>
    IO.print ("\n" ++ Prompt.farewell)
    return 0
  | some line =>
    let around ← surroundings opens
    let values := (Prompt.expressions [some line]).map .text
    match state.settings.boundsFor (around.stack .prompt) values with
    | .error fault => breakOff (.limit fault)
    | .ok bounds =>
      match Prompt.answer bounds state.settings.outputPrecision format line with
      | none =>
        IO.print Prompt.farewell
        return 0
      | some given =>
        IO.print given.value
        let (errors, journal) := state.journal.logAll around.toContext given.events
        writeLogs errors journal.files
        converse opens format (flushed { state with journal })

def perform (opens : String → Option String) (request : Request) (state : State) : IO UInt32 := do
  let around ← surroundings opens
  match state.settings.boundsFor (around.stack request.caller) (request.evaluated []) with
  | .error fault => breakOff (.limit fault)
  | .ok bounds =>
    match request.perform? bounds state.settings.outputPrecision numericsVersion with
    | some (exit, done) =>
      IO.print done.value
      let (errors, journal) := state.journal.logAll around.toContext done.events
      writeLogs errors journal.files
      return exit.toUInt32
    | none =>
      IO.print Prompt.banner
      converse opens request.format state

def carryOut (opens : String → Option String) (request : Request) (state : State) : IO UInt32 := do
  match request.logSetup with
  | .error cause => breakOff cause
  | .ok setup =>
    match state.journal.install opens setup with
    | (.error fault, _) => breakOff (.logging fault)
    | (.ok (), journal) =>
      let around ← surroundings opens
      let (errors, journal) := journal.logAll around.toContext request.overrideEvents
      writeLogs errors journal.files
      perform opens request (flushed ⟨request.override state.settings, journal⟩)

def start (settings : Settings) (arguments : List String) : IO UInt32 := do
  match parse arguments with
  | .error .help =>
    IO.print helpText
    return 0
  | .error (.fault cause) =>
    IO.eprint cause.complaint
    return 2
  | .ok request =>
    let opened ← (request.logFile.filter (· ≠ "")).mapM canAppend
    let opens := fun name => if opened.getD true then some name else none
    carryOut opens request ⟨settings, .initial⟩

def environment : IO (String → Option String) := do
  let values ← Environment.names.mapM fun name => return (name, ← IO.getEnv name)
  return fun name => (values.lookup name).join

end Reckoner.Program

def main (arguments : List String) : IO UInt32 := do
  match Reckoner.Environment.settings (← Reckoner.Program.environment) with
  | .error fault =>
    IO.eprintln fault.message
    return 1
  | .ok settings => Reckoner.Program.start settings arguments
