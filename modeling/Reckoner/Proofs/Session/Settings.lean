import Reckoner.Proofs.CommandLine.Override
import Reckoner.Proofs.Log.Routing

/-!
The settings of a session. Only assignments and the flags of accepted command lines give settings
new values, so behind a session each setting has the last value it was given.
-/
namespace Reckoner

def Settings.get? (settings : Settings) : Setting → Option Int
  | .maxInputLength => settings.maxInputLength
  | .maxNestingDepth => settings.maxNestingDepth
  | .outputPrecision => settings.outputPrecision
  | .poolSize => settings.poolSize

theorem Settings.get?_assign (settings : Settings) (setting other : Setting) (number : Int) :
    (settings.assign setting number).get? other =
      if setting = other then some number else settings.get? other := by
  cases setting <;> cases other <;> rfl

def Setting.flag? : Setting → Option CommandLine.Flag
  | maxNestingDepth => some .maxDepth
  | outputPrecision => some .precision
  | maxInputLength | poolSize => none

theorem Setting.flag?_cases {setting : Setting} {flag : CommandLine.Flag}
    (named : setting.flag? = some flag) : setting = maxNestingDepth ∧ flag = .maxDepth ∨
      setting = outputPrecision ∧ flag = .precision := by
  cases setting with
  | maxNestingDepth => exact Or.inl ⟨rfl, (Option.some.inj named).symm⟩
  | outputPrecision => exact Or.inr ⟨rfl, (Option.some.inj named).symm⟩
  | maxInputLength => cases named
  | poolSize => cases named

namespace Session

open CommandLine (Accepted CanLog Flag Means Refused Spelled State Surroundings Tells Use giveAll
  helpText lastValue parse run taken)

/-! Steps. -/

/-- A step gives a setting a number: by assignment, or as the last value of its flag on a command
line that is accepted and whose logging can be set up. -/
inductive Step.Gives (surroundings : Surroundings) (setting : Setting) (number : Int) : Step → Prop
  | assign : Gives surroundings setting number (.assign setting number)
  | run {arguments : List String} {typed : List (Option String)} {uses : List Use} {flag : Flag}
      {value : String} (tells : Tells arguments uses) (accepted : Accepted uses)
      (logs : CanLog surroundings uses) (named : setting.flag? = some flag)
      (last : lastValue flag uses = some value) (read : Numeral.whole value.toList = .ok number)
      (positive : 1 ≤ number) : Gives surroundings setting number (.runProgram arguments typed)

/-- A run empties a setting if the last value of its flag is the bare mark. -/
def Step.Empties (setting : Setting) : Step → Prop
  | runProgram arguments _ => ∃ uses flag, Tells arguments uses ∧ Accepted uses ∧
      setting.flag? = some flag ∧ lastValue flag uses = some "--"
  | _ => False

section Override

variable {setting : Setting} {uses : List Use} {flag : Flag} (settings : Settings)

theorem get?_override (named : setting.flag? = some flag) :
    ((giveAll {} uses).override settings).get? setting =
      ((lastValue flag uses).map (taken · flag.positive)).getD (settings.get? setting) := by
  rcases Setting.flag?_cases named with ⟨rfl, rfl⟩ | ⟨rfl, rfl⟩
  · simp only [CommandLine.Request.override, Settings.get?, CommandLine.setBy_maxDepth.giveAll]
    cases lastValue .maxDepth uses <;> rfl
  · simp only [CommandLine.Request.override, Settings.get?, CommandLine.setBy_precision.giveAll]
    cases lastValue .precision uses <;> rfl

theorem get?_override_of_last {value : String} {number : Int} (named : setting.flag? = some flag)
    (last : lastValue flag uses = some value) (read : Numeral.whole value.toList = .ok number)
    (positive : 1 ≤ number) :
    ((giveAll {} uses).override settings).get? setting = some number := by
  have unmarked : value ≠ "--" := by
    rintro rfl
    cases read
  have set : taken value flag.positive = some number := by
    rw [taken, if_neg unmarked, CommandLine.positive_eq_ok_iff.mpr ⟨read, positive⟩]
    rfl
  rw [get?_override settings named, last, Option.map_some, Option.getD_some, set]

theorem get?_override_of_unused
    (unused : ∀ flag, setting.flag? = some flag → lastValue flag uses = none) :
    ((giveAll {} uses).override settings).get? setting = settings.get? setting := by
  cases named : setting.flag? with
  | none => cases setting <;> first | rfl | cases named
  | some flag =>
    rw [get?_override settings named, unused flag named, Option.map_none, Option.getD_none]

end Override

section Take

variable {setting : Setting} {number : Int} {surroundings : Surroundings} {step : Step}
  (state : State)

theorem settings_evaluating (bounds : Except LimitFault Bounds) {step : Bounds → Turn}
    (kept : ∀ bounds, (step bounds).state.settings = state.settings) :
    (evaluating state bounds step).state.settings = state.settings := by
  unfold evaluating
  split
  · exact kept _
  · rfl

theorem settings_take (assigns : ∀ setting number, step ≠ .assign setting number)
    (runs : ∀ arguments typed, step ≠ .runProgram arguments typed) :
    (step.take surroundings state).state.settings = state.settings := by
  cases step with
  | assign setting number => exact absurd rfl (assigns setting number)
  | runProgram arguments typed => exact absurd rfl (runs arguments typed)
  | evaluate value => exact settings_evaluating state _ fun _ => rfl
  | answer value => exact settings_evaluating state _ fun _ => rfl
  | answerMany values workers =>
    rw [Step.take]
    split
    · rfl
    · exact settings_evaluating state _ fun _ => rfl
  | validate value => exact settings_evaluating state _ fun _ => rfl
  | call evaluator => exact settings_evaluating state _ fun _ => rfl
  | format value => rfl
  | setUpLogging request => rfl
  | resetLogging => rfl
  | log level name template arguments incident => rfl

theorem get?_take_of_gives (gives : step.Gives surroundings setting number) :
    (step.take surroundings state).state.settings.get? setting = some number := by
  cases gives with
  | assign =>
    change (state.settings.assign setting number).get? setting = _
    rw [Settings.get?_assign, if_pos rfl]
  | @run arguments typed uses flag value tells accepted logs named last read positive =>
    change (run surroundings state arguments typed).state.settings.get? setting = _
    rw [(CommandLine.settings_run tells accepted surroundings state typed).1 logs]
    exact get?_override_of_last state.settings named last read positive

/-- The last value of the flag of a setting is a number from one upwards, which the run gives to the
setting, unless the value is the mark. -/
theorem exists_gives {arguments : List String} {uses : List Use} (tells : Tells arguments uses)
    (accepted : Accepted uses) (logs : CanLog surroundings uses) {flag : Flag}
    (named : setting.flag? = some flag) {value : String} (last : lastValue flag uses = some value)
    (proper : value ≠ "--") (typed : List (Option String)) :
    ∃ number, Numeral.whole value.toList = .ok number ∧ 1 ≤ number ∧
      (Step.runProgram arguments typed).Gives surroundings setting number := by
  have accepts := accepted _ (CommandLine.mem_of_lastValue last)
  have read : ∃ number, Numeral.whole value.toList = .ok number ∧ 1 ≤ number := by
    rcases Setting.flag?_cases named with ⟨_, rfl⟩ | ⟨_, rfl⟩ <;>
      exact accepts.resolve_left proper
  obtain ⟨number, read, positive⟩ := read
  exact ⟨number, read, positive, .run tells accepted logs named last read positive⟩

theorem get?_run_of_not_gives {arguments : List String} {typed : List (Option String)}
    (filled : ¬(Step.runProgram arguments typed).Empties setting)
    (none : ∀ number, ¬(Step.runProgram arguments typed).Gives surroundings setting number) :
    (run surroundings state arguments typed).state.settings.get? setting =
      state.settings.get? setting := by
  cases parsed : parse arguments with
  | error halt => cases halt <;> rw [run, parsed]
  | ok request =>
    obtain ⟨uses, tells, accepted⟩ := CommandLine.exists_accepted_of_parse parsed
    obtain ⟨replaced, kept⟩ := CommandLine.settings_run tells accepted surroundings state typed
    by_cases logs : CanLog surroundings uses
    · rw [replaced logs]
      refine get?_override_of_unused state.settings fun flag named => ?_
      cases last : lastValue flag uses with
      | none => rfl
      | some value =>
        have proper : value ≠ "--" := by
          rintro rfl
          exact filled ⟨uses, flag, tells, accepted, named, last⟩
        obtain ⟨number, _, _, gives⟩ := exists_gives tells accepted logs named last proper typed
        exact absurd gives (none number)
    · rw [(kept logs).1]

theorem get?_take_of_not_gives (filled : ¬step.Empties setting)
    (none : ∀ number, ¬step.Gives surroundings setting number) :
    (step.take surroundings state).state.settings.get? setting =
      state.settings.get? setting := by
  cases step with
  | assign other number =>
    change (state.settings.assign other number).get? setting = _
    have different : other ≠ setting := by
      rintro rfl
      exact none number .assign
    rw [Settings.get?_assign, if_neg different]
  | runProgram arguments typed => exact get?_run_of_not_gives state filled none
  | _ =>
    exact congrArg (Settings.get? · setting)
      (settings_take state (fun _ _ => nofun) fun _ _ => nofun)

end Take

/-! Runs. -/

theorem not_empties_of_parse {arguments : List String} {typed : List (Option String)}
    (filled : ∀ request, parse arguments = .ok request →
      request.precision ≠ some none ∧ request.maxDepth ≠ some none) (setting : Setting) :
    ¬(Step.runProgram arguments typed).Empties setting := by
  rintro ⟨uses, flag, tells, accepted, named, last⟩
  obtain ⟨precision, maxDepth⟩ := filled _ (tells.parse_of_accepted accepted)
  rw [CommandLine.setBy_precision.giveAll] at precision
  rw [CommandLine.setBy_maxDepth.giveAll] at maxDepth
  rcases Setting.flag?_cases named with ⟨_, rfl⟩ | ⟨_, rfl⟩
  · exact maxDepth (by rw [last]; rfl)
  · exact precision (by rw [last]; rfl)

/-- What becomes of a run by what its command line amounts to. A faulty one and a call for help
evaluate nothing and leave the whole state as it was. All others tell uses, which are accepted. They
set each setting to the last value of its flag, a number from one upwards unless it is the mark. If
logging cannot be set up, they keep the settings instead. -/
def Settled (surroundings : Surroundings) (state : State) (arguments : List String)
    (outcome : CommandLine.Outcome) : Prop :=
  match parse arguments with
  | .error (.fault _) => Refused state outcome
  | .error .help => outcome = ⟨.ok 0, helpText, "", [], state⟩
  | .ok _ => outcome.exit ≠ .ok 2 ∧ (∃ uses, Tells arguments uses) ∧
      ∀ uses, Tells arguments uses → Accepted uses ∧
        (CanLog surroundings uses → ∀ setting flag value, Setting.flag? setting = some flag →
          lastValue flag uses = some value → value ≠ "--" →
          ∃ number, Numeral.whole value.toList = .ok number ∧ 1 ≤ number ∧
            outcome.state.settings.get? setting = some number) ∧
        (¬CanLog surroundings uses →
          outcome.state.settings = state.settings ∧ outcome.evaluated = [])

theorem settled_run (surroundings : Surroundings) (state : State) (arguments : List String)
    (typed : List (Option String)) :
    Settled surroundings state arguments (run surroundings state arguments typed) := by
  rw [Settled]
  cases parsed : parse arguments with
  | error halt =>
    cases halt with
    | help => simp only [run, parsed]
    | fault cause => exact CommandLine.refused_of_fault surroundings state typed parsed
  | ok request =>
    obtain ⟨uses, tells, _⟩ := CommandLine.exists_accepted_of_parse parsed
    refine ⟨fun exit => ?_, ⟨uses, tells⟩, fun uses tells => ?_⟩
    · obtain ⟨cause, faulty⟩ := (CommandLine.exit_run_eq_two_iff surroundings state typed).mp exit
      rw [parsed] at faulty
      cases faulty
    · have accepted := tells.accepted_of_parse parsed
      obtain ⟨_, kept⟩ := CommandLine.settings_run tells accepted surroundings state typed
      refine ⟨accepted, fun logs setting flag value named last proper => ?_, kept⟩
      obtain ⟨number, read, positive, gives⟩ :=
        exists_gives tells accepted logs named last proper typed
      exact ⟨number, read, positive, get?_take_of_gives state gives⟩

/-! Sessions. -/

theorem settle_append (state : State) (earlier later : List (Surroundings × Step)) :
    settle state (earlier ++ later) = settle (settle state earlier) later :=
  List.foldl_append ..

theorem get?_settle_of_not_gives {setting : Setting} {steps : List (Surroundings × Step)}
    (none : ∀ taken ∈ steps, ¬taken.2.Empties setting ∧
      ∀ number, ¬taken.2.Gives taken.1 setting number) (state : State) :
    (settle state steps).settings.get? setting = state.settings.get? setting := by
  induction steps generalizing state with
  | nil => rfl
  | cons first rest ih =>
    obtain ⟨filled, kept⟩ := none first List.mem_cons_self
    have one := get?_take_of_not_gives state filled kept
    exact (ih (fun taken member => none taken (List.mem_cons_of_mem _ member)) _).trans one

/-- In a session a setting changes only in steps that give it a number, and then to that number,
unless a mark empties it. A run settles as its command line asks for. Behind the session the
setting has the number that the last step gave it which gave it any, and its initial value if no
step did. -/
theorem settings_of_session (state : State) (steps : List (Surroundings × Step))
    (setting : Setting) :
    (∀ earlier surroundings step later, steps = earlier ++ (surroundings, step) :: later →
      let before := settle state earlier
      let after := (step.take surroundings before).state
      (¬step.Empties setting → (∀ number, ¬step.Gives surroundings setting number) →
        after.settings.get? setting = before.settings.get? setting) ∧
      (∀ number, step.Gives surroundings setting number →
        after.settings.get? setting = some number ∧
        ((∀ other ∈ later, ¬other.2.Empties setting ∧
            ∀ number, ¬other.2.Gives other.1 setting number) →
          (settle state steps).settings.get? setting = some number)) ∧
      ∀ arguments typed, step = .runProgram arguments typed →
        Settled surroundings before arguments (run surroundings before arguments typed)) ∧
    ((∀ taken ∈ steps, ¬taken.2.Empties setting ∧
        ∀ number, ¬taken.2.Gives taken.1 setting number) →
      (settle state steps).settings.get? setting = state.settings.get? setting) := by
  refine ⟨?_, fun none => get?_settle_of_not_gives none state⟩
  rintro earlier surroundings step later rfl before after
  refine ⟨get?_take_of_not_gives before, fun number gives => ?_, ?_⟩
  · have given := get?_take_of_gives before gives
    refine ⟨given, fun none => ?_⟩
    rw [settle_append]
    exact (get?_settle_of_not_gives none after).trans given
  · rintro arguments typed rfl
    exact settled_run surroundings before arguments typed

def overriding : List (Surroundings × Step) :=
  [(surroundingsAt "1", .runProgram ["-p", "7", "-vp3"] []),
    (surroundingsAt "2", .runProgram ["--precision=5", "-p0"] []),
    (surroundingsAt "3", .answer (.text "1/3"))]

theorem tells_overriding : Tells ["-p", "7", "-vp3"]
    [(.precision, "7"), (.version, ""), (.precision, "3")] := by
  have precision : Means ['-', 'p'] .precision := by decide
  have joined : Spelled ['-', 'v', 'p', '3'] .version true (some ['p', '3']) :=
    .joined rfl (by decide) (by decide)
  exact .apart (.named precision none) (.waits rfl _) (by decide)
    (.whole joined (.joined rfl rfl (.value rfl true ['3'])) .nil)

theorem settings_of_session_overriding :
    (settle start overriding).settings.get? .outputPrecision = some 3 := by
  have parsed : parse ["-p", "7", "-vp3"] =
      .ok { precision := some (some 3), version := true } := by decide +kernel
  have refused : parse ["--precision=5", "-p0"] = .error (.fault (.tooSmall .precision 0)) := by
    decide +kernel
  have gives : Step.Gives (surroundingsAt "1") .outputPrecision 3
      (.runProgram ["-p", "7", "-vp3"] []) :=
    .run tells_overriding (tells_overriding.accepted_of_parse parsed) ⟨nofun, nofun, nofun⟩ rfl rfl
      (by decide +kernel) (by decide)
  obtain ⟨each, _⟩ := settings_of_session start overriding .outputPrecision
  obtain ⟨_, given, _⟩ := each [] _ _ _ rfl
  refine (given 3 gives).2 fun other member => ?_
  simp only [List.mem_cons, List.not_mem_nil, or_false] at member
  rcases member with rfl | rfl
  · refine ⟨not_empties_of_parse (fun request parsed' => ?_) _, fun number gives => ?_⟩
    · rw [refused] at parsed'
      cases parsed'
    · cases gives with
      | run tells accepted logs named last read positive =>
        rw [tells.parse_of_accepted accepted] at refused
        cases refused
  · refine ⟨id, fun number gives => ?_⟩
    cases gives

def sealedSurroundings : Surroundings := { surroundingsAt "" with opens := fun _ => none }

theorem tells_precision_logFile : Tells ["-p", "5", "--log-file", "/nonexistent/x.log", "-v"]
    [(.precision, "5"), (.logFile, "/nonexistent/x.log"), (.version, "")] := by
  have precision : Means ['-', 'p'] .precision := by decide
  have logFile : Means "--log-file".toList .logFile := by decide
  have version : Means ['-', 'v'] .version := by decide
  exact .apart (.named precision none) (.waits rfl _) (by decide)
    (.apart (.named logFile none) (.waits rfl _) (by decide)
      (.whole (.named version none) (.alone rfl _) .nil))

/-- A run with a log file that cannot be opened is neither refused nor a call for help, and yet it
does not set the precision to its last value. -/
theorem precision_not_set :
    let arguments := ["-p", "5", "--log-file", "/nonexistent/x.log", "-v"]
    let outcome := run sealedSurroundings start arguments []
    (∃ uses, Tells arguments uses ∧ Accepted uses ∧ lastValue .precision uses = some "5") ∧
      Numeral.whole "5".toList = .ok 5 ∧
      outcome.exit = .error (.logging (.cannotOpen "/nonexistent/x.log")) ∧
      outcome.state.settings.outputPrecision = some 12 := by
  intro arguments outcome
  have parsed : parse arguments =
      .ok { precision := some (some 5), logFile := some "/nonexistent/x.log",
            version := true } := by
    decide +kernel
  have accepted := tells_precision_logFile.accepted_of_parse parsed
  have broken : outcome = ⟨.error (.logging (.cannotOpen "/nonexistent/x.log")), "", "", [],
      { start with journal := { Log.Journal.initial with level := .info } }⟩ := by
    change run sealedSurroundings start arguments [] = _
    rw [run, parsed]
    rfl
  rw [broken]
  exact ⟨⟨_, tells_precision_logFile, accepted, rfl⟩, by decide +kernel, rfl, rfl⟩

end Session

end Reckoner
