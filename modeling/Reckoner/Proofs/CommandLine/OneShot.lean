import Reckoner.CommandLine.Run
import Reckoner.Proofs.CommandLine.Display
import Reckoner.Proofs.CommandLine.Preference

/-!
Runs of the program for one expression. Preferences in front of the expression replace settings,
and what is printed and the exit code are those of the evaluation under the settings then in force.
-/
namespace Reckoner.CommandLine

/-! Requests with nothing but preferences and an expression. -/

/-- A request that neither asks for a report of its own nor changes how logging is set up. -/
structure Request.Plain (request : Request) : Prop where
  version : request.version = false
  healthCheck : request.healthCheck = false
  logLevel : request.logLevel = some .info
  logFile : request.logFile = none
  logFormat : request.logFormat = some .text

theorem plain_setAll (preferences : List Preference) {request : Request} (plain : request.Plain) :
    (Preference.setAll preferences request).Plain := by
  induction preferences generalizing request with
  | nil => exact plain
  | cons preference others ih =>
    apply ih
    obtain ⟨version, healthCheck, logLevel, logFile, logFormat⟩ := plain
    cases preference <;> exact ⟨version, healthCheck, logLevel, logFile, logFormat⟩

theorem expression_setAll (preferences : List Preference) (request : Request) :
    (Preference.setAll preferences request).expression = request.expression := by
  induction preferences generalizing request with
  | nil => rfl
  | cons preference others ih =>
    rw [Preference.setAll, List.foldl_cons]
    exact (ih _).trans (by cases preference <;> rfl)

def requested (preferences : List Preference) (expression : Option (Option String)) : Request :=
  { Preference.setAll preferences {} with expression }

theorem requested_none (preferences : List Preference) :
    requested preferences none = Preference.setAll preferences {} := by
  have absent : (Preference.setAll preferences {}).expression = none :=
    expression_setAll preferences {}
  rw [requested]
  generalize Preference.setAll preferences {} = request at absent
  cases request
  cases absent
  rfl

theorem plain_requested (preferences : List Preference) (expression : Option (Option String)) :
    (requested preferences expression).Plain := by
  obtain ⟨version, healthCheck, logLevel, logFile, logFormat⟩ :=
    plain_setAll preferences (⟨rfl, rfl, rfl, rfl, rfl⟩ : Request.Plain {})
  exact ⟨version, healthCheck, logLevel, logFile, logFormat⟩

def Preference.override (preferences : List Preference) (settings : Settings) : Settings :=
  (setAll preferences {}).override settings

theorem boundsFor_of_bounds? {settings : Settings} {stack : Nat} {bounds : Bounds}
    (bounded : settings.bounds? stack = some bounds) (values : List Value) :
    settings.boundsFor stack values = .ok bounds := by
  rw [Settings.boundsFor, bounded]

theorem carryOut_of_plain {request : Request} (plain : request.Plain) {bounds : Bounds}
    (surroundings : Surroundings) (state : State) (typed : List (Option String))
    (bounded : (request.override state.settings).bounds? (surroundings.stack request.caller) =
      some bounds) :
    let settings := request.override state.settings
    let performed := request.perform bounds settings.outputPrecision surroundings.numericsVersion
      typed
    let outcome := request.carryOut surroundings state typed
    outcome.exit = .ok performed.1 ∧ outcome.output = performed.2.value ∧
      outcome.state.settings = settings := by
  have setup : request.logSetup = .ok ⟨.info, none, .text⟩ := by
    rw [Request.logSetup, plain.logLevel, plain.logFormat, plain.logFile]
    rfl
  rw [Request.carryOut, setup]
  simp only [Log.Journal.install, Log.Journal.prepare, boundsFor_of_bounds? bounded, and_self]

theorem carryOut_congr {request : Request} {surroundings : Surroundings} {state : State}
    {bounds : Bounds} {typed typed' : List (Option String)}
    (bounded : (request.override state.settings).bounds? (surroundings.stack request.caller) =
      some bounds)
    (alike : request.evaluated typed = request.evaluated typed')
    (same : ∀ precision, request.perform bounds precision surroundings.numericsVersion typed =
      request.perform bounds precision surroundings.numericsVersion typed') :
    request.carryOut surroundings state typed = request.carryOut surroundings state typed' := by
  rw [Request.carryOut, Request.carryOut]
  simp only [boundsFor_of_bounds? bounded, same, alike]

theorem perform_requested (preferences : List Preference) (given : Option String) (bounds : Bounds)
    (precision : Option Int) (numericsVersion : String) (typed : List (Option String)) :
    let answer := (Answer.evaluate bounds (handedIn given)).value
    let performed := (requested preferences (some given)).perform bounds precision
      numericsVersion typed
    performed.1 = (if answer.ok then 0 else 1) ∧
      performed.2.value =
        answer.printed precision (requested preferences none).format (given.getD "") := by
  have plain := plain_requested preferences (some given)
  rw [Request.perform, Request.perform?, plain.version, plain.healthCheck]
  exact ⟨rfl, rfl⟩

theorem caller_requested (preferences : List Preference) (expression : Option (Option String)) :
    (requested preferences expression).caller =
      if expression.isSome then .oneShot else .prompt := by
  rw [Request.caller, (plain_requested preferences expression).healthCheck]
  rfl

/-! Arguments. -/

theorem means_eval : Means ['-', '-', 'e', 'v', 'a', 'l'] .eval := by decide

/-- What an expression flag keeps of its text. The mark for the end of the flags is dropped. -/
def kept (expression : String) : Option String :=
  if expression = "--" then none else some expression

theorem apply_eval (expression : String) (request : Request) :
    Flag.eval.apply expression request =
      .ok { request with expression := some (kept expression) } := by
  rw [Flag.apply, Flag.read, kept]
  split <;> rfl

theorem parse_eval {preferences : List Preference} {arguments : List String}
    (given : Preferences preferences arguments) (expression : String) :
    parse (arguments ++ ["--eval=" ++ expression]) =
      .ok (requested preferences (some (kept expression))) :=
  (given.changes.append (changes_attached means_eval rfl (apply_eval expression))).parse_eq

theorem parse_preferences {preferences : List Preference} {arguments : List String}
    (given : Preferences preferences arguments) :
    parse arguments = .ok (requested preferences none) := by
  rw [requested_none, given.changes.parse_eq]

/-! Runs. -/

section Run

variable {preferences : List Preference} {arguments : List String} {state : State} {bounds : Bounds}

theorem run_requested (given : Preferences preferences arguments) (surroundings : Surroundings)
    (bounded : (Preference.override preferences state.settings).bounds?
      (surroundings.stack .oneShot) = some bounds)
    (expression : String) (typed : List (Option String)) :
    let settings := Preference.override preferences state.settings
    let answer := (Answer.evaluate bounds (handedIn (kept expression))).value
    let outcome := run surroundings state (arguments ++ ["--eval=" ++ expression]) typed
    outcome.exit = .ok (if answer.ok then 0 else 1) ∧
      outcome.output = answer.printed settings.outputPrecision (requested preferences none).format
        ((kept expression).getD "") ∧
      outcome.state.settings = settings := by
  have caller : (requested preferences (some (kept expression))).caller = .oneShot :=
    caller_requested preferences (some (kept expression))
  obtain ⟨exit, output, settings⟩ := carryOut_of_plain
    (plain_requested preferences (some (kept expression))) surroundings state typed
      (caller.symm ▸ bounded)
  obtain ⟨code, printed⟩ := perform_requested preferences (kept expression) bounds
    (Preference.override preferences state.settings).outputPrecision surroundings.numericsVersion
    typed
  rw [run, parse_eval given]
  exact ⟨exit.trans (congrArg Except.ok code), output.trans printed, settings⟩

/-- A run for one expression reports exactly what the evaluation of the expression comes to, under
the settings that the preferences in front of it leave. -/
theorem run_eval (given : Preferences preferences arguments) {expression : String}
    (unmarked : expression ≠ "--") (surroundings : Surroundings)
    (bounded : (Preference.override preferences state.settings).bounds?
      (surroundings.stack .oneShot) = some bounds)
    (sufficient : ∀ fault, (Evaluator.evaluate bounds (.text expression) none).result =
      .error fault → fault.cause ≠ .stackExhausted)
    (typed : List (Option String)) :
    let settings := Preference.override preferences state.settings
    let outcome := run surroundings state (arguments ++ ["--eval=" ++ expression]) typed
    outcome.exit = .ok (if (Answer.evaluate bounds (.text expression)).value.ok then 0 else 1) ∧
      Displays settings.outputPrecision (requested preferences none).format expression
        (Evaluator.evaluate bounds (.text expression) none).result outcome.output := by
  have whole : kept expression = some expression := if_neg unmarked
  obtain ⟨exit, output, _⟩ := run_requested given surroundings bounded expression typed
  rw [whole] at exit output
  refine ⟨exit, ?_⟩
  rw [output]
  exact displays_printed bounds _ _ expression sufficient

def plainSurroundings : Surroundings where
  time := ""
  opens := some
  complaint _ _ := ""
  numericsVersion := ""
  stack _ := 1000

theorem run_eval_unclosed :
    let outcome := run plainSurroundings ⟨{}, .initial⟩
      (["--form", "human", "-p5", "--max-depth=7"] ++ ["--eval=" ++ "-2*(1 =3"]) []
    outcome.exit = .ok 1 ∧
      outcome.output = "Error: Missing ')'\n  -2*(1 =3\n        ^\n" := by
  have format : (Preference.format .human).Written [String.ofList "--form".toList, "human"] :=
    .apart (by decide) rfl
  have precision : (Preference.precision 5).Written ["-p" ++ "5"] :=
    .joined rfl ⟨rfl, by decide⟩
  have maxDepth :
      (Preference.maxDepth 7).Written [String.ofList "--max-depth".toList ++ "=" ++ "7"] :=
    .equals (by decide) ⟨rfl, by decide⟩
  have given : Preferences [.format .human, .precision 5, .maxDepth 7]
      ["--form", "human", "-p5", "--max-depth=7"] :=
    .cons format (.cons precision (.cons maxDepth .nil))
  have failed : (Evaluator.evaluate { maxLength := 0, maxDepth := 7, stack := 1000 }
        (.text "-2*(1 =3") none).result =
      .error ⟨.unclosed none, some 6, some '='⟩ := rfl
  have unmarked : "-2*(1 =3" ≠ "--" := by decide
  have bounded : (Preference.override [.format .human, .precision 5, .maxDepth 7]
      (⟨{}, .initial⟩ : State).settings).bounds? 1000 =
        some { maxLength := 0, maxDepth := 7, stack := 1000 } := rfl
  obtain ⟨exit, explains⟩ := run_eval given unmarked plainSurroundings bounded
    (by rw [failed]; simp) []
  rw [failed] at explains
  obtain ⟨position, place, output, _⟩ := explains.pointed (by decide) (by decide)
  obtain rfl := Option.some.inj place
  exact ⟨exit, output⟩

theorem run_mark (given : Preferences preferences arguments) (surroundings : Surroundings)
    (bounded : (Preference.override preferences state.settings).bounds?
      (surroundings.stack .oneShot) = some bounds)
    (typed : List (Option String)) :
    let settings := Preference.override preferences state.settings
    let outcome := run surroundings state (arguments ++ ["--eval=--"]) typed
    outcome.exit = .ok 1 ∧
      Displays settings.outputPrecision (requested preferences none).format ""
        (.error (Fault.ofInput (.wrongKind "list"))) outcome.output := by
  obtain ⟨exit, output, _⟩ := run_requested given surroundings bounded "--" typed
  refine ⟨exit, ?_⟩
  change Displays _ _ "" _ (run surroundings state (arguments ++ ["--eval=" ++ "--"]) typed).output
  rw [output]
  cases (requested preferences none).format with
  | json => exact displays_json _ "" _
  | human => exact explains_ofInput (Or.inl rfl) (by decide) _

end Run

end Reckoner.CommandLine
