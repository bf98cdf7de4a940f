import Reckoner.Text.Quoted

/-! Severities of log records, and the names of those that have one from the start. -/
namespace Reckoner.Log

structure Level where
  severity : Int
  name : String
  deriving DecidableEq, Repr

namespace Level

def notSet : Level := ⟨0, "NOTSET"⟩

def debug : Level := ⟨10, "DEBUG"⟩

def info : Level := ⟨20, "INFO"⟩

def warning : Level := ⟨30, "WARNING"⟩

def error : Level := ⟨40, "ERROR"⟩

def critical : Level := ⟨50, "CRITICAL"⟩

def all : List Level := [notSet, debug, info, warning, error, critical]

def aliases : List (String × Level) := [("WARN", warning), ("FATAL", critical)]

def ofName? (wanted : String) : Option Level :=
  (all.find? (·.name = wanted)).or (aliases.lookup wanted)

def choices : List Level := [debug, info, warning, error]

/-- A letter in upper case, as far as the names of levels reach; the dotless i is an `I` too. -/
def upperLetter (c : Char) : Char := if c = 'ı' then 'I' else c.toUpper

def choice? (wanted : String) : Option Level := choices.find? (·.name = wanted.map upperLetter)

def reaches (level threshold : Level) : Bool := threshold.severity ≤ level.severity

end Level

end Reckoner.Log
