import Reckoner.CommandLine.Run
import Reckoner.DoubleEvaluator

/-!
Sessions: steps that share one set of settings and one journal. A step answers its caller, may write
to the error stream through the journal, and hands the state on to the next step.
-/
namespace Reckoner

inductive Setting where
  | maxInputLength | maxNestingDepth | outputPrecision | poolSize
  deriving DecidableEq, Repr

def Settings.assign (settings : Settings) (setting : Setting) (number : Int) : Settings :=
  match setting with
  | .maxInputLength => { settings with maxInputLength := number }
  | .maxNestingDepth => { settings with maxNestingDepth := some number }
  | .outputPrecision => { settings with outputPrecision := some number }
  | .poolSize => { settings with poolSize := number }

namespace Session

open CommandLine (Breakdown State Surroundings)

inductive Step where
  | assign (setting : Setting) (number : Int)
  | evaluate (value : Value)
  | answer (value : Value)
  | answerMany (values : List Value) (workers : Option Int)
  | validate (value : Value)
  | call (evaluator : DoubleEvaluator)
  | format (value : Value)
  | runProgram (arguments : List String) (typed : List (Option String))
  | setUpLogging (request : Log.SetupRequest)
  | resetLogging
  | log (level : Log.Level) (name template : String) (arguments : List Value)
      (incident : Option Log.Incident)

inductive Reply where
  | done
  | evaluated (outcome : Except Fault Float)
  | answered (result : Result)
  | answeredMany (results : Except Answer.BatchFault (List Result))
  | validated (valid : Bool) (message : Option String)
  | formatted (text : Option String)
  | ran (exit : Except Breakdown Nat) (output errors : String)
  | setUp (outcome : Except Log.SetupFault Unit)
  | brokeOff (cause : LimitFault)

/-- A step that was taken: its answer, what it wrote to the error stream, and the state it left. -/
structure Turn where
  reply : Reply
  errors : String
  state : State

def logged (context : Log.Context) (state : State) (reply : Reply) (events : List Log.Event) :
    Turn :=
  let (errors, journal) := state.journal.logAll context events
  ⟨reply, errors, { state with journal }⟩

/-- A step that evaluates values. It breaks off if there are no bounds for them. -/
def evaluating (state : State) (bounds : Except LimitFault Bounds) (step : Bounds → Turn) : Turn :=
  match bounds with
  | .ok bounds => step bounds
  | .error cause => ⟨.brokeOff cause, "", state⟩

def Step.take (surroundings : Surroundings) (state : State) : Step → Turn
  | assign setting number =>
    ⟨.done, "", { state with settings := state.settings.assign setting number }⟩
  | evaluate value =>
    evaluating state (state.settings.boundsFor (surroundings.stack .parser) [value]) fun bounds =>
      let evaluation := Evaluator.evaluate bounds value none
      logged surroundings.toContext state (.evaluated evaluation.result)
        (evaluation.notes.map Note.event)
  | answer value =>
    evaluating state (state.settings.boundsFor (surroundings.stack .answer) [value]) fun bounds =>
      let answer := Answer.evaluate bounds value
      logged surroundings.toContext state (.answered answer.value) answer.events
  | answerMany values workers =>
    match Answer.batchFault? state.settings.poolSize values workers with
    | some fault => ⟨.answeredMany (.error fault), "", state⟩
    | none =>
      evaluating state (state.settings.boundsFor (surroundings.stack .worker) values) fun bounds =>
        let answers := Answer.batch bounds values
        logged surroundings.toContext state (.answeredMany (.ok answers.value)) answers.events
  | validate value =>
    evaluating state (state.settings.boundsFor (surroundings.stack .validation) [value])
      fun bounds =>
        let (valid, message) := Answer.validate bounds value
        logged surroundings.toContext state (.validated valid message)
          ((Evaluator.evaluate bounds value none).notes.map Note.event)
  | call evaluator =>
    evaluating state
      ((evaluator.settings state.settings).boundsFor (surroundings.stack .evaluator)
        [evaluator.expression])
      fun bounds =>
        let evaluation := evaluator.evaluate bounds
        logged surroundings.toContext state (.evaluated evaluation.result)
          (evaluation.notes.map Note.event)
  | format value =>
    ⟨.formatted (if value.isWritable then
        some (NumberText.format (.ofSetting state.settings.outputPrecision) value)
      else none), "", state⟩
  | runProgram arguments typed =>
    let outcome := CommandLine.run surroundings state arguments typed
    ⟨.ran outcome.exit outcome.output outcome.errors, outcome.errors, outcome.state⟩
  | setUpLogging request =>
    let (outcome, journal) := state.journal.setup surroundings.opens request
    ⟨.setUp outcome, "", { state with journal }⟩
  | resetLogging => ⟨.done, "", { state with journal := state.journal.reset }⟩
  | log level name template arguments incident =>
    let (errors, journal) := state.journal.log surroundings.toContext
      { level, source := Log.sourceNamed name, template, arguments, incident }
    ⟨.done, errors, { state with journal }⟩

def start : State := ⟨{}, .initial⟩

def play (surroundings : Surroundings) (state : State) : List Step → List Turn
  | [] => []
  | step :: rest =>
    let turn := step.take surroundings state
    turn :: play surroundings turn.state rest

end Session

end Reckoner
