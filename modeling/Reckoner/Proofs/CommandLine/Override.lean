import Reckoner.Proofs.CommandLine.Refusal
import Reckoner.Proofs.CommandLine.Uses
import Reckoner.Proofs.Log.Delivery

/-!
What a command line makes of the settings. Of the uses of a flag the last one counts. The settings
are replaced only if logging could be set up before, and then by the last values of their flags.
-/
namespace Reckoner.CommandLine

/-! Values. -/

def lastValue (flag : Flag) (uses : List Use) : Option String := uses.reverse.lookup flag

theorem lastValue_cons (flag : Flag) (use : Use) (uses : List Use) :
    lastValue flag (use :: uses) =
      (lastValue flag uses).or (if use.1 = flag then some use.2 else none) := by
  obtain ⟨flag', value⟩ := use
  rw [lastValue, List.reverse_cons, List.lookup_append]
  by_cases same : flag' = flag
  · simp [lastValue, same]
  · simp [lastValue, List.lookup_cons, same, beq_eq_false_iff_ne.mpr (Ne.symm same)]

theorem mem_of_lastValue {flag : Flag} {uses : List Use} {value : String}
    (last : lastValue flag uses = some value) : (flag, value) ∈ uses := by
  obtain ⟨front, back, whole, _⟩ := List.lookup_eq_some_iff.mp last
  rw [← List.mem_reverse, whole]
  exact List.mem_append_right _ List.mem_cons_self

/-- The values that a flag accepts. The mark is accepted by every flag with a value. -/
def Flag.Accepts (value : String) : Flag → Prop
  | .help => False
  | .version | .healthCheck | .eval | .logFile => True
  | .precision | .maxDepth =>
    value = "--" ∨ ∃ number, Numeral.whole value.toList = .ok number ∧ 1 ≤ number
  | .format => value = "--" ∨ ∃ choice ∈ OutputFormat.all, choice.name = value
  | .logLevel => value = "--" ∨ ∃ choice ∈ Log.Level.choices, choice.name = value
  | .logFormat => value = "--" ∨ ∃ choice ∈ Log.Format.all, choice.name = value

def Accepted (uses : List Use) : Prop := ∀ use ∈ uses, use.1.Accepts use.2

/-- A value as it is read, with nothing in place of the mark. -/
def taken {α : Type} (value : String) (reader : String → Except UsageFault α) : Option α :=
  if value = "--" then none else (reader value).toOption

theorem bind_read_eq_ok_iff {α : Type} {value : String} {reader : String → Except UsageFault α}
    {next : Option α → Request} {request : Request} :
    ((Flag.read value reader).bind fun chosen => .ok (next chosen)) = .ok request ↔
      (value = "--" ∨ ∃ read, reader value = .ok read) ∧ next (taken value reader) = request := by
  rw [Flag.read, taken]
  by_cases mark : value = "--"
  · rw [if_pos mark, if_pos mark]
    simp [mark, Except.bind]
  · rw [if_neg mark, if_neg mark]
    cases reader value <;> simp [mark, Except.mapError, Except.map, Except.bind, Except.toOption]

theorem positive_eq_ok_iff {flag : Flag} {value : String} {number : Int} :
    flag.positive value = .ok number ↔ Numeral.whole value.toList = .ok number ∧ 1 ≤ number := by
  rw [Flag.positive]
  cases Numeral.whole value.toList with
  | error fault => simp
  | ok read =>
    by_cases small : read < 1
    · simp only [if_pos small, reduceCtorEq, Except.ok.injEq, false_iff, not_and]
      omega
    · simp only [if_neg small, Except.ok.injEq]
      omega

theorem exists_choose_eq_ok_iff {α : Type} {flag : Flag} {value : String} {choices : List α}
    {name : α → String} : (∃ choice, flag.choose value choices name = .ok choice) ↔
      ∃ choice ∈ choices, name choice = value := by
  rw [Flag.choose]
  cases found : choices.find? (name · = value) with
  | none =>
    have absent := List.find?_eq_none.mp found
    simpa using absent
  | some choice =>
    have member := List.mem_of_find?_eq_some found
    have named := List.find?_some found
    simpa using ⟨choice, member, of_decide_eq_true named⟩

/-! Requests. -/

def Flag.give (flag : Flag) (value : String) (request : Request) : Request :=
  match flag with
  | help => request
  | version => { request with version := true }
  | healthCheck => { request with healthCheck := true }
  | eval => { request with expression := some (taken value .ok) }
  | logFile => { request with logFile := taken value .ok }
  | precision => { request with precision := some (taken value (positive flag)) }
  | maxDepth => { request with maxDepth := some (taken value (positive flag)) }
  | format =>
    { request with
      format := (taken value (choose flag · OutputFormat.all (·.name))).getD .human }
  | logLevel =>
    { request with logLevel := taken value (choose flag · Log.Level.choices (·.name)) }
  | logFormat => { request with logFormat := taken value (choose flag · Log.Format.all (·.name)) }

theorem apply_eq_ok_iff {flag : Flag} {value : String} {request request' : Request} :
    flag.apply value request = .ok request' ↔
      flag.Accepts value ∧ flag.give value request = request' := by
  cases flag with
  | help => exact ⟨nofun, fun accepted => accepted.1.elim⟩
  | version => simp [Flag.apply, Flag.Accepts, Flag.give]
  | healthCheck => simp [Flag.apply, Flag.Accepts, Flag.give]
  | eval => exact bind_read_eq_ok_iff.trans (and_congr_left' (by simp [Flag.Accepts]))
  | logFile => exact bind_read_eq_ok_iff.trans (and_congr_left' (by simp [Flag.Accepts]))
  | precision =>
    refine bind_read_eq_ok_iff.trans (and_congr_left' ?_)
    simp only [positive_eq_ok_iff, Flag.Accepts]
  | maxDepth =>
    refine bind_read_eq_ok_iff.trans (and_congr_left' ?_)
    simp only [positive_eq_ok_iff, Flag.Accepts]
  | format =>
    exact bind_read_eq_ok_iff.trans (and_congr_left' (or_congr_right exists_choose_eq_ok_iff))
  | logLevel =>
    exact bind_read_eq_ok_iff.trans (and_congr_left' (or_congr_right exists_choose_eq_ok_iff))
  | logFormat =>
    exact bind_read_eq_ok_iff.trans (and_congr_left' (or_congr_right exists_choose_eq_ok_iff))

def giveAll (request : Request) (uses : List Use) : Request :=
  uses.foldl (fun request use => use.1.give use.2 request) request

theorem applyAll_eq_ok_iff {request request' : Request} {uses : List Use} :
    applyAll request uses = .ok request' ↔ Accepted uses ∧ giveAll request uses = request' := by
  induction uses generalizing request with
  | nil => simp [applyAll, Accepted, giveAll]
  | cons use rest ih =>
    obtain ⟨flag, value⟩ := use
    have step : applyAll request ((flag, value) :: rest) = .ok request' ↔
        ∃ middle, flag.apply value request = .ok middle ∧ applyAll middle rest = .ok request' := by
      constructor
      · exact bind_eq_ok
      · rintro ⟨middle, applied, later⟩
        rw [applyAll, applied]
        exact later
    rw [step, Accepted, List.forall_mem_cons]
    constructor
    · rintro ⟨middle, applied, later⟩
      obtain ⟨accepts, rfl⟩ := apply_eq_ok_iff.mp applied
      obtain ⟨others, made⟩ := ih.mp later
      exact ⟨⟨accepts, others⟩, made⟩
    · rintro ⟨⟨accepts, others⟩, made⟩
      exact ⟨_, apply_eq_ok_iff.mpr ⟨accepts, rfl⟩, ih.mpr ⟨others, made⟩⟩

theorem Tells.parse_of_accepted {arguments : List String} {uses : List Use}
    (tells : Tells arguments uses) (accepted : Accepted uses) :
    parse arguments = .ok (giveAll {} uses) :=
  tells.parse_eq.trans (applyAll_eq_ok_iff.mpr ⟨accepted, rfl⟩)

theorem Tells.accepted_of_parse {arguments : List String} {uses : List Use} {request : Request}
    (tells : Tells arguments uses) (parsed : parse arguments = .ok request) : Accepted uses :=
  (applyAll_eq_ok_iff.mp (tells.parse_eq.symm.trans parsed)).1

theorem exists_accepted_of_parse {arguments : List String} {request : Request}
    (parsed : parse arguments = .ok request) : ∃ uses, Tells arguments uses ∧ Accepted uses := by
  obtain ⟨uses, tells, _⟩ := parse_eq_ok_iff.mp parsed
  exact ⟨uses, tells, tells.accepted_of_parse parsed⟩

/-- A part of requests is set by one flag if all others leave it alone. -/
def SetBy {α : Type} (part : Request → α) (flag : Flag) (reader : String → α) : Prop :=
  ∀ (other : Flag) value request,
    part (other.give value request) = if other = flag then reader value else part request

theorem SetBy.giveAll {α : Type} {part : Request → α} {flag : Flag} {reader : String → α}
    (set : SetBy part flag reader) (request : Request) (uses : List Use) :
    part (giveAll request uses) = ((lastValue flag uses).map reader).getD (part request) := by
  induction uses generalizing request with
  | nil => rfl
  | cons use rest ih =>
    rw [CommandLine.giveAll, List.foldl_cons]
    refine (ih _).trans ?_
    rw [lastValue_cons, set]
    cases lastValue flag rest with
    | some later => rfl
    | none => by_cases same : use.1 = flag <;> simp [same]

theorem setBy_precision : SetBy Request.precision .precision
    fun value => some (taken value (Flag.positive .precision)) := by
  intro other value request
  cases other <;> rfl

theorem setBy_maxDepth : SetBy Request.maxDepth .maxDepth
    fun value => some (taken value (Flag.positive .maxDepth)) := by
  intro other value request
  cases other <;> rfl

theorem setBy_logFile : SetBy Request.logFile .logFile fun value => taken value .ok := by
  intro other value request
  cases other <;> rfl

theorem setBy_logLevel : SetBy Request.logLevel .logLevel
    fun value => taken value (Flag.choose .logLevel · Log.Level.choices (·.name)) := by
  intro other value request
  cases other <;> rfl

theorem setBy_logFormat : SetBy Request.logFormat .logFormat
    fun value => taken value (Flag.choose .logFormat · Log.Format.all (·.name)) := by
  intro other value request
  cases other <;> rfl

/-! Logging. -/

/-- Logging can be set up as uses ask for it: neither its level nor its format is emptied, and its
file can be opened if it has one. -/
structure CanLog (surroundings : Surroundings) (uses : List Use) : Prop where
  level : lastValue .logLevel uses ≠ some "--"
  format : lastValue .logFormat uses ≠ some "--"
  file : ∀ file, lastValue .logFile uses = some file → file ∉ ["", "--"] →
    (surroundings.opens file).isSome

theorem taken_eq_none_iff {α : Type} {value : String} {reader : String → Except UsageFault α}
    (accepted : value = "--" ∨ ∃ read, reader value = .ok read) :
    taken value reader = none ↔ value = "--" := by
  rw [taken]
  by_cases mark : value = "--"
  · simp [mark]
  · obtain ⟨read, success⟩ := accepted.resolve_left mark
    simp [mark, success, Except.toOption]

theorem map_taken_eq_none_iff {α : Type} {flag : Flag} {uses : List Use} {initial : α}
    {reader : String → Except UsageFault α}
    (accepted : ∀ value, (flag, value) ∈ uses → value = "--" ∨ ∃ read, reader value = .ok read) :
    ((lastValue flag uses).map (taken · reader)).getD (some initial) = none ↔
      lastValue flag uses = some "--" := by
  cases last : lastValue flag uses with
  | none => simp
  | some value =>
    have taken := taken_eq_none_iff (accepted value (mem_of_lastValue last))
    simpa using taken

theorem logFile_giveAll (uses : List Use) (file : String) :
    (giveAll {} uses).logFile.filter (· ≠ "") = some file ↔
      lastValue .logFile uses = some file ∧ file ∉ ["", "--"] := by
  rw [setBy_logFile.giveAll]
  cases last : lastValue .logFile uses with
  | none => simp
  | some value =>
    by_cases mark : value = "--"
    · simp only [taken, mark, Option.map_some, if_true, Option.getD_some, Option.filter_none,
        reduceCtorEq, Option.some.injEq, false_iff]
      rintro ⟨rfl, other⟩
      exact other (by simp)
    · simp only [taken, mark, if_false, Except.toOption, Option.map_some, Option.getD_some,
        Option.filter_eq_some_iff, Option.some.injEq, List.mem_cons, List.not_mem_nil, or_false,
        not_or, decide_eq_true_eq]
      constructor
      · rintro ⟨rfl, present⟩
        exact ⟨rfl, present, mark⟩
      · rintro ⟨rfl, present, _⟩
        exact ⟨rfl, present⟩

theorem canLog_iff {surroundings : Surroundings} {uses : List Use} (accepted : Accepted uses) :
    CanLog surroundings uses ↔ ∃ setup, (giveAll {} uses).logSetup = .ok setup ∧
      (setup.route? surroundings.opens).isSome := by
  have level : (giveAll {} uses).logLevel = none ↔ lastValue .logLevel uses = some "--" := by
    rw [setBy_logLevel.giveAll]
    exact map_taken_eq_none_iff fun value member =>
      (accepted _ member).imp_right exists_choose_eq_ok_iff.mpr
  have format : (giveAll {} uses).logFormat = none ↔ lastValue .logFormat uses = some "--" := by
    rw [setBy_logFormat.giveAll]
    exact map_taken_eq_none_iff fun value member =>
      (accepted _ member).imp_right exists_choose_eq_ok_iff.mpr
  rw [Request.logSetup]
  cases chosen : (giveAll {} uses).logLevel with
  | none => exact ⟨fun can => absurd (level.mp chosen) can.level, nofun⟩
  | some level' =>
    cases chosen' : (giveAll {} uses).logFormat with
    | none => exact ⟨fun can => absurd (format.mp chosen') can.format, nofun⟩
    | some format' =>
      constructor
      · intro can
        refine ⟨_, rfl, Log.Setup.isSome_route?_iff.mpr fun file named => ?_⟩
        obtain ⟨last, proper⟩ := (logFile_giveAll uses file).mp named
        exact can.file file last proper
      · rintro ⟨setup, same, openable⟩
        obtain rfl := Except.ok.inj same
        refine ⟨fun emptied => ?_, fun emptied => ?_, fun file last proper => ?_⟩
        · rw [level.mpr emptied] at chosen
          cases chosen
        · rw [format.mpr emptied] at chosen'
          cases chosen'
        · exact Log.Setup.isSome_route?_iff.mp openable file
            ((logFile_giveAll uses file).mpr ⟨last, proper⟩)

/-! Settings. -/

section CarryOut

variable {request : Request} {surroundings : Surroundings} {state : State}
  (typed : List (Option String))

theorem settings_carryOut_of_openable {setup : Log.Setup} (made : request.logSetup = .ok setup)
    (openable : (setup.route? surroundings.opens).isSome) :
    (request.carryOut surroundings state typed).state.settings =
      request.override state.settings := by
  obtain ⟨route, opened⟩ := Option.isSome_iff_exists.mp openable
  have installed := Log.Journal.install_of_route? state.journal opened
  simp only [Request.carryOut, made, installed]
  split <;> rfl

theorem settings_carryOut_of_not_openable
    (fails : ∀ setup, request.logSetup = .ok setup → setup.route? surroundings.opens = none) :
    let outcome := request.carryOut surroundings state typed
    outcome.state.settings = state.settings ∧ outcome.evaluated = [] := by
  cases made : request.logSetup with
  | error cause => simp only [Request.carryOut, made, and_self]
  | ok setup =>
    obtain ⟨name, _, _, installed⟩ :=
      Log.Journal.install_of_closed state.journal (fails setup made)
    simp only [Request.carryOut, made, installed, and_self]

end CarryOut

/-- An accepted command line replaces the settings if logging can be set up, and else keeps them and
evaluates nothing. -/
theorem settings_run {arguments : List String} {uses : List Use} (tells : Tells arguments uses)
    (accepted : Accepted uses) (surroundings : Surroundings) (state : State)
    (typed : List (Option String)) :
    (CanLog surroundings uses → (run surroundings state arguments typed).state.settings =
      (giveAll {} uses).override state.settings) ∧
    (¬CanLog surroundings uses →
      (run surroundings state arguments typed).state.settings = state.settings ∧
        (run surroundings state arguments typed).evaluated = []) := by
  rw [run, tells.parse_of_accepted accepted, canLog_iff accepted]
  constructor
  · rintro ⟨setup, made, openable⟩
    exact settings_carryOut_of_openable typed made openable
  · intro none
    refine settings_carryOut_of_not_openable typed fun setup made => ?_
    exact Option.not_isSome_iff_eq_none.mp fun openable => none ⟨setup, made, openable⟩

end Reckoner.CommandLine
