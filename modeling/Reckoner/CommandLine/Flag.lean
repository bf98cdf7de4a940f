import Reckoner.Log.Line
import Reckoner.Result

/-! The flags of the command line, their names, and the request that they make together. -/
namespace Reckoner.CommandLine

inductive Flag where
  | help | eval | format | precision | maxDepth | version | logLevel | logFile | logFormat
  | healthCheck
  deriving DecidableEq, Repr

namespace Flag

def all : List Flag :=
  [help, eval, format, precision, maxDepth, version, logLevel, logFile, logFormat, healthCheck]

def names : Flag → List String
  | help => ["-h", "--help"]
  | eval => ["-e", "--eval"]
  | format => ["--format"]
  | precision => ["-p", "--precision"]
  | maxDepth => ["--max-depth"]
  | version => ["-v", "--version"]
  | logLevel => ["--log-level"]
  | logFile => ["--log-file"]
  | logFormat => ["--log-format"]
  | healthCheck => ["--health-check"]

def takesValue : Flag → Bool
  | help | version | healthCheck => false
  | eval | format | precision | maxDepth | logLevel | logFile | logFormat => true

def table : List (String × Flag) := all.flatMap fun flag => flag.names.map (·, flag)

def ofName? (name : String) : Option Flag := table.lookup name

def title (flag : Flag) : String := "/".intercalate flag.names

end Flag

/-- What a command line asks for. A flag that was given may have been emptied: then there is nothing
in the place of its value. -/
structure Request where
  expression : Option (Option String) := none
  format : OutputFormat := .human
  precision : Option (Option Int) := none
  maxDepth : Option (Option Int) := none
  version : Bool := false
  logLevel : Option Log.Level := some .info
  logFile : Option String := none
  logFormat : Option Log.Format := some .text
  healthCheck : Bool := false
  deriving DecidableEq, Repr

inductive UsageFault where
  | ambiguous (argument : String) (candidates : List String)
  | missingValue (flag : Flag)
  | ignoredValue (flag : Flag) (value : String)
  | notAnInteger (flag : Flag) (value : String)
  | tooSmall (flag : Flag) (value : Int)
  | invalidChoice (flag : Flag) (value : String) (choices : List String)
  | unrecognized (arguments : List String)
  deriving DecidableEq, Repr

namespace UsageFault

def about (flag : Flag) (complaint : String) : String :=
  "argument " ++ flag.title ++ ": " ++ complaint

def message : UsageFault → String
  | ambiguous argument candidates =>
    "ambiguous option: " ++ argument ++ " could match " ++ ", ".intercalate candidates
  | missingValue flag => about flag "expected one argument"
  | ignoredValue flag value => about flag ("ignored explicit argument " ++ Text.quoted value)
  | notAnInteger flag value => about flag ("expected an integer, got " ++ Text.quoted value)
  | tooSmall flag value => about flag ("must be at least 1, got " ++ toString value)
  | invalidChoice flag value choices =>
    about flag ("invalid choice: " ++ Text.quoted value ++ " (choose from " ++
      ", ".intercalate (choices.map Text.quoted) ++ ")")
  | unrecognized arguments => "unrecognized arguments: " ++ " ".intercalate arguments

end UsageFault

inductive Halt where
  | help
  | fault (cause : UsageFault)
  deriving DecidableEq, Repr

namespace Flag

def positive (flag : Flag) (value : String) : Except UsageFault Int :=
  match Numeral.whole value.toList with
  | .error _ => .error (.notAnInteger flag value)
  | .ok number => if number < 1 then .error (.tooSmall flag number) else .ok number

def choose {α : Type} (flag : Flag) (value : String) (choices : List α) (name : α → String) :
    Except UsageFault α :=
  match choices.find? (name · = value) with
  | some choice => .ok choice
  | none => .error (.invalidChoice flag value (choices.map name))

/-- The value of a flag as read. The mark `--` is dropped and leaves the flag empty, whatever values
the flag takes. -/
def read {α : Type} (value : String) (reader : String → Except UsageFault α) :
    Except Halt (Option α) :=
  if value = "--" then .ok none else ((reader value).map some).mapError .fault

/-- The request with a flag added; a later flag replaces an earlier one of its kind. Flags that take
no value ignore the one given here. Without a file name there is no log file, and without a format
results are printed for humans. -/
def apply (flag : Flag) (value : String) (request : Request) : Except Halt Request :=
  match flag with
  | help => .error .help
  | version => .ok { request with version := true }
  | healthCheck => .ok { request with healthCheck := true }
  | eval => do return { request with expression := some (← read value .ok) }
  | logFile => do return { request with logFile := ← read value .ok }
  | precision => do return { request with precision := some (← read value (positive flag)) }
  | maxDepth => do return { request with maxDepth := some (← read value (positive flag)) }
  | format => do
    let chosen ← read value (choose flag · OutputFormat.all (·.name))
    return { request with format := chosen.getD .human }
  | logLevel => do
    return { request with logLevel := ← read value (choose flag · Log.Level.choices (·.name)) }
  | logFormat => do
    return { request with logFormat := ← read value (choose flag · Log.Format.all (·.name)) }

end Flag

end Reckoner.CommandLine
