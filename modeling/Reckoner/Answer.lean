import Reckoner.Log.Event
import Reckoner.Result

/-!
Evaluation for callers who want no exceptions: results with the events that are logged on the way,
for one value, for a batch of values, and as a mere check.
-/
namespace Reckoner

def Note.event (note : Note) : Log.Event where
  level := .debug
  source := Log.sourceNamed "parser"
  template := "Unknown function %r at position %d returns its argument"
  arguments := [.text note.name, .int note.position]

inductive LimitFault where
  | emptied
  | unwritable
  deriving DecidableEq, Repr

def LimitFault.message : LimitFault → String
  | emptied => "'>' not supported between instances of 'int' and 'list'"
  | unwritable => Numeral.unwritableMessage

/-- The bounds under which a caller can have values evaluated. No count can be compared with an
emptied limit, and one that cannot be written cannot be named in a fault. Then there are bounds only
if every value is refused before anything of it is read. -/
def Settings.boundsFor (settings : Settings) (stack : Nat) (values : List Value) :
    Except LimitFault Bounds :=
  match settings.bounds? stack with
  | some bounds => .ok bounds
  | none =>
    if values.all fun value => !(Evaluator.accept settings.maxInputLength value).isOk then
      .ok ⟨settings.maxInputLength, 0, stack, isNameable_zero stack⟩
    else .error (if settings.maxNestingDepth = none then .emptied else .unwritable)

structure Logged (α : Type) where
  value : α
  events : List Log.Event

namespace Answer

def failureEvent (value : Value) (fault : Fault) : Log.Event where
  level := .debug
  source := Log.sourceNamed "api"
  template := "Evaluation of %r failed [%s]: %s"
  arguments := [value, .text fault.code, .text fault.message]

def evaluate (bounds : Bounds) (value : Value) : Logged Result :=
  let evaluation := Evaluator.evaluate bounds value none
  { value := Result.ofEvaluation evaluation.result
    events := evaluation.notes.map Note.event ++
      match evaluation.result with
      | .ok _ => []
      | .error fault => [failureEvent value fault] }

/-- A value is valid if it evaluates to a number; else the message says why not. -/
def validate (bounds : Bounds) (value : Value) : Bool × Option String :=
  match (Evaluator.evaluate bounds value none).result with
  | .ok _ => (true, none)
  | .error fault => (false, some fault.message)

inductive BatchFault where
  | noWorkers
  deriving DecidableEq, Repr

def BatchFault.message : BatchFault → String
  | noWorkers => "max_workers must be greater than 0"

/-- The workers of a batch: as many as asked for, or else those of the pool. -/
def workers (poolSize : Int) (asked : Option Int) : Int :=
  match asked with
  | some count => if 0 < count then count else poolSize
  | none => poolSize

def batchEvent (total failures : Nat) : Log.Event where
  level := .info
  source := Log.sourceNamed "api"
  template := "Batch of %d expressions finished with %d failures"
  arguments := [.int total, .int failures]

/-- The fault of a batch that nobody works on. An empty batch needs no workers. -/
def batchFault? (poolSize : Int) (values : List Value) (asked : Option Int) : Option BatchFault :=
  if !values.isEmpty && workers poolSize asked < 1 then some .noWorkers else none

/-- The answers to a batch. They stand in the order of the values, whichever worker took which. -/
def batch (bounds : Bounds) (values : List Value) : Logged (List Result) :=
  let answers := values.map (evaluate bounds)
  let failures := answers.countP fun answer => !answer.value.ok
  ⟨answers.map (·.value), answers.flatMap (·.events) ++
    if failures = 0 then [] else [batchEvent values.length failures]⟩

def evaluateMany (bounds : Bounds) (poolSize : Int) (values : List Value) (asked : Option Int) :
    Except BatchFault (Logged (List Result)) :=
  match batchFault? poolSize values asked with
  | some fault => .error fault
  | none => .ok (batch bounds values)

end Answer

end Reckoner
