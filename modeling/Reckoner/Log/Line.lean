import Reckoner.Json
import Reckoner.Log.Record

/-! Log lines in the two formats: plain text, and one JSON object for each record. -/
namespace Reckoner.Log

inductive Format where
  | text | json
  deriving DecidableEq, Repr

namespace Format

def name : Format → String
  | text => "text"
  | json => "json"

def all : List Format := [text, json]

def ofName? (wanted : String) : Option Format := all.find? (·.name = wanted)

end Format

/-- A plain line; an incident stands on a line of its own below it. -/
def Record.textLine (time : String) (record : Record) : String :=
  time ++ " [" ++ record.level.name ++ "] " ++ record.source ++ ": " ++ record.message ++
    match record.incident with
    | none => ""
    | some incident => "\n" ++ incident.text

def Record.members (time : String) (record : Record) : List (String × Json.Scalar) :=
  [("time", .string time), ("level", .string record.level.name), ("logger", .string record.source),
    ("message", .string record.message)] ++
    match record.incident with
    | none => []
    | some incident => [("exc", .string incident.text)]

def Record.jsonLine (time : String) (record : Record) : String := Json.object (record.members time)

def Record.line (record : Record) (format : Format) (time : String) : String :=
  match format with
  | .text => record.textLine time
  | .json => record.jsonLine time

end Reckoner.Log
