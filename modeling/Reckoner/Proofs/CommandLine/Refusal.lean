import Reckoner.CommandLine.Run

/-!
Refused command lines. A run exits with the code two exactly if its arguments are faulty, and then
it leaves everything as it was.
-/
namespace Reckoner.CommandLine

/-- A run that says what is wrong with its arguments, evaluates nothing and does nothing else. -/
structure Refused (state : State) (outcome : Outcome) : Prop where
  exit : outcome.exit = .ok 2
  output : outcome.output = ""
  errors : ∃ cause : UsageFault, outcome.errors = cause.complaint
  evaluated : outcome.evaluated = []
  state : outcome.state = state

theorem exit_perform_le (request : Request) (bounds : Bounds) (precision : Option Int)
    (numericsVersion : String) (typed : List (Option String)) :
    (request.perform bounds precision numericsVersion typed).1 ≤ 1 := by
  rw [Request.perform, Request.perform?]
  split
  · exact Nat.zero_le 1
  · split
    · simp only [Option.getD_some]
      split <;> decide
    · cases request.expression with
      | none => exact Nat.zero_le 1
      | some given =>
        simp only [Option.map_some, Option.getD_some]
        split <;> decide

theorem exit_carryOut_ne (request : Request) (surroundings : Surroundings) (state : State)
    (typed : List (Option String)) :
    (request.carryOut surroundings state typed).exit ≠ .ok 2 := by
  rw [Request.carryOut]
  split
  · nofun
  · split
    · nofun
    · cases bounded : (request.override state.settings).boundsFor
          (surroundings.stack request.caller) (request.evaluated typed) with
      | error fault => simp only [bounded, ne_eq, reduceCtorEq, not_false_eq_true]
      | ok bounds =>
        have small := exit_perform_le request bounds
          (request.override state.settings).outputPrecision surroundings.numericsVersion typed
        simp only [bounded, ne_eq, Except.ok.injEq]
        omega

section Run

variable (surroundings : Surroundings) (state : State) {arguments : List String}
  (typed : List (Option String))

theorem refused_of_fault {cause : UsageFault}
    (faulty : parse arguments = .error (.fault cause)) :
    Refused state (run surroundings state arguments typed) := by
  rw [run, faulty]
  exact ⟨rfl, rfl, ⟨cause, rfl⟩, rfl, rfl⟩

theorem exit_run_eq_two_iff : (run surroundings state arguments typed).exit = .ok 2 ↔
    ∃ cause, parse arguments = .error (.fault cause) := by
  constructor
  · intro exit
    cases parsed : parse arguments with
    | ok request =>
      rw [run, parsed] at exit
      exact (exit_carryOut_ne request surroundings state typed exit).elim
    | error halt =>
      cases halt with
      | help =>
        rw [run, parsed] at exit
        cases exit
      | fault cause => exact ⟨cause, rfl⟩
  · rintro ⟨cause, faulty⟩
    exact (refused_of_fault surroundings state typed faulty).exit

end Run

end Reckoner.CommandLine
