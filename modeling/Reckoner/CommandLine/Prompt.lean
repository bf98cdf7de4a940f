import Reckoner.Answer
import Reckoner.CommandLine.Usage
import Reckoner.Text.Blank

/-! The interactive prompt: each line is answered on its own until the user leaves. -/
namespace Reckoner.CommandLine.Prompt

def banner : String := "Hitung — type 'help' for commands, 'quit' to exit.\n"

def invitation : String := ">>> "

def farewell : String := "Goodbye.\n"

def helpText : String := lines [
  "Enter an arithmetic expression, for example:",
  "  2+3*4        (2+3)*4        2^3^2        -4",
  "  sqrt(16)     sin 0          round(2.5)   1/0",
  "Operators: + - * / ^ (right-associative), unary + and -",
  "Functions: " ++ ", ".intercalate Function.knownNames,
  "Commands: help, quit, exit"]

inductive Command where
  | nothing | quit | help
  | evaluate (expression : String)
  deriving DecidableEq, Repr

/-- White space around a line does not matter, nor does the case of a command word. -/
def Command.ofLine (line : String) : Command :=
  let expression := Text.trimBlanks line
  let word := expression.map Char.toLower
  if expression = "" then .nothing
  else if word = "quit" || word = "exit" then .quit
  else if word = "help" then .help
  else .evaluate expression

def expressions : List (Option String) → List String
  | [] | none :: _ => []
  | some line :: rest =>
    match Command.ofLine line with
    | .quit => []
    | .nothing | .help => expressions rest
    | .evaluate expression => expression :: expressions rest

/-- The answer to a line; there is none to one that leaves the prompt. -/
def answer (bounds : Bounds) (precision : Option Int) (format : OutputFormat) (line : String) :
    Option (Logged String) :=
  match Command.ofLine line with
  | .nothing => some ⟨"", []⟩
  | .quit => none
  | .help => some ⟨helpText, []⟩
  | .evaluate expression =>
    let result := Answer.evaluate bounds (.text expression)
    some ⟨result.value.printed precision format expression, result.events⟩

/-- The dialogue over the lines typed, where `none` is an interruption. What is printed after an
interruption or the end of the lines starts on a new line. -/
def dialogue (bounds : Bounds) (precision : Option Int) (format : OutputFormat) :
    List (Option String) → Logged String
  | [] | none :: _ => ⟨invitation ++ "\n" ++ farewell, []⟩
  | some line :: rest =>
    match answer bounds precision format line with
    | none => ⟨invitation ++ farewell, []⟩
    | some given =>
      let later := dialogue bounds precision format rest
      ⟨invitation ++ given.value ++ later.value, given.events ++ later.events⟩

def session (bounds : Bounds) (precision : Option Int) (format : OutputFormat)
    (typed : List (Option String)) : Logged String :=
  let talk := dialogue bounds precision format typed
  ⟨banner ++ talk.value, talk.events⟩

end Reckoner.CommandLine.Prompt
