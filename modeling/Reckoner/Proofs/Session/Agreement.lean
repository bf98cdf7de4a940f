import Reckoner.Proofs.Grammar.Raise
import Reckoner.Proofs.Log.Message
import Reckoner.Proofs.Session.Settings

/-!
The ways to have a value evaluated agree. Each of them reports the one outcome that the value has
under the settings, as often as it is asked, unless it uses up the stack of its caller. What is no
text or too long is refused unread; the outcome of any other value does not depend on the bound on
its length.
-/
namespace Reckoner

open Evaluator

section

variable {maxLength : Int} {value : Value} {text : String} {fault : Fault}

end

/-! Limits that can be named. -/

namespace Session

open CommandLine (Accepted CanLog State Surroundings Tells Use giveAll lastValue)

def entries (value : Value) : List (Caller × Step) :=
  [(.parser, .evaluate value), (.answer, .answer value), (.validation, .validate value),
    (.evaluator, .call { expression := value })]

/-- A reply says how an evaluation ended: with its value, or with what its fault says. -/
def Reply.Reports (outcome : Except Fault Float) : Reply → Prop
  | evaluated other => other = outcome
  | answered result =>
    match outcome with
    | .ok number => result = { ok := true, value := some (.double number) }
    | .error fault => result =
      { ok := false, error := some fault.message, errorCode := some fault.code,
        position := fault.position.map Int.ofNat }
  | validated valid message =>
    match outcome with
    | .ok _ => valid = true ∧ message = none
    | .error fault => valid = false ∧ message = some fault.message
  | _ => False

def Step.Keeps (step : Step) : Prop :=
  (∀ setting number, step ≠ .assign setting number) ∧
    ∀ arguments typed, step ≠ .runProgram arguments typed

/-- A reply reports an outcome, unless the evaluation uses up its stack; then it reports that. -/
def Reply.Agrees (settings : Settings) (value : Value) (outcome : Except Fault Float) (stack : Nat)
    (reply : Reply) : Prop :=
  ∃ bounds, settings.boundsFor stack [value] = .ok bounds ∧
    ((evaluate bounds value none).Fits → reply.Reports outcome) ∧
    (¬(evaluate bounds value none).Fits →
      ∃ fault, fault.cause = .stackExhausted ∧ reply.Reports (.error fault))

section

variable {state : State} {value : Value} {surroundings : Surroundings} {entry : Caller × Step}

end

section

variable {settings : Settings} {value : Value} {text : String}

end

theorem limit_of_mark {arguments : List String} {typed : List (Option String)} {uses : List Use}
    {surroundings : Surroundings} (tells : Tells arguments uses) (accepted : Accepted uses)
    (logs : CanLog surroundings uses) (last : lastValue .maxDepth uses = some "--")
    (state : State) :
    (CommandLine.run surroundings state arguments typed).state.settings.maxNestingDepth = none := by
  have replaced := (CommandLine.settings_run tells accepted surroundings state typed).1 logs
  have limit : ((giveAll {} uses).override state.settings).get? .maxNestingDepth = _ :=
    get?_override state.settings rfl
  rw [last] at limit
  rw [replaced]
  exact limit

/-- Behind such a run no text is evaluated. -/
example (surroundings : Surroundings) : ((Step.answer (.text "1")).take surroundings
    (CommandLine.run surroundings start ["--max-depth=--", "--version"] []).state).reply =
      .brokeOff .emptied := by
  have parsed : CommandLine.parse ["--max-depth=--", "--version"] =
      .ok { maxDepth := some none, version := true } := by decide +kernel
  rw [CommandLine.run, parsed]
  rfl

end Session

end Reckoner
