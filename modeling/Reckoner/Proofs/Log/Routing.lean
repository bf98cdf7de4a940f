import Reckoner.Proofs.Log.Framing
import Reckoner.Session

/-!
The logging of a session. Whatever the order of its steps, each record is found exactly once in the
file that was the current one when it was logged, and once on the error stream while a set-up is in
force.
-/
namespace Reckoner.Session

open CommandLine (State Surroundings)
open Log (Entry Event Record Route SetupRequest transcript entriesFor)

/-! Steps that log. -/

/-- A set-up with known names and a file that can be opened, a reset, a record or an answer. -/
def Step.Loggable (surroundings : Surroundings) : Step → Prop
  | setUpLogging request => ∃ setup, request.resolve = .ok setup ∧
      (setup.route? surroundings.opens).isSome
  | resetLogging | answer _ | log _ _ _ _ _ => True
  | _ => False

def Step.route (surroundings : Surroundings) (current : Option Route) : Step → Option Route
  | setUpLogging request =>
    match request.resolve with
    | .ok setup => setup.route? surroundings.opens
    | .error _ => current
  | resetLogging => none
  | _ => current

def Step.events (settings : Settings) (surroundings : Surroundings) : Step → List Event
  | answer value =>
    match settings.boundsFor (surroundings.stack .answer) [value] with
    | .ok bounds => (Answer.evaluate bounds value).events
    | .error _ => []
  | log level name template arguments incident =>
    [{ level, source := Log.sourceNamed name, template, arguments, incident }]
  | _ => []

def Step.entries (settings : Settings) (current : Option Route) (surroundings : Surroundings)
    (step : Step) : List Entry :=
  (step.events settings surroundings).map (⟨current, surroundings.toContext, ·⟩)

/-- What becomes of the state in a step that logs: the route in force changes as it should, and the
events of the step are delivered. A file that is the current one neither before nor after it is not
touched. -/
structure Routes (state : State) (current : Option Route) (surroundings : Surroundings)
    (step : Step) (turn : Turn) : Prop where
  settings : turn.state.settings = state.settings
  follows : turn.state.journal.Follows (step.route surroundings current)
  errors : current.isSome → turn.errors =
    String.join ((step.entries state.settings current surroundings).map Entry.report)
  text : ∀ file, turn.state.journal.text file = state.journal.text file ++
    transcript (entriesFor file (step.entries state.settings current surroundings))
  others : ∀ file, (∀ route, current = some route → route.file ≠ some file) →
    (∀ route, step.route surroundings current = some route → route.file ≠ some file) →
    turn.state.journal.content? file = state.journal.content? file

section

variable {state : State} {current : Option Route} {surroundings : Surroundings}

theorem routes_of_delivers {step : Step} {turn : Turn}
    (settings : turn.state.settings = state.settings)
    (same : step.route surroundings current = current)
    (delivers : state.journal.Delivers current (step.entries state.settings current surroundings)
      turn.errors turn.state.journal) : Routes state current surroundings step turn where
  settings := settings
  follows := same.symm ▸ delivers.follows
  errors := delivers.errors
  text := delivers.text
  others := fun file other _ => delivers.others file other

theorem routes_setUpLogging {request : SetupRequest}
    (loggable : (Step.setUpLogging request).Loggable surroundings) :
    Routes state current surroundings (.setUpLogging request)
      ((Step.setUpLogging request).take surroundings state) := by
  obtain ⟨setup, resolved, openable⟩ := loggable
  obtain ⟨route, opened⟩ := Option.isSome_iff_exists.mp openable
  have next : (Step.setUpLogging request).route surroundings current = some route := by
    simp only [Step.route, resolved, opened]
  have journal : ((Step.setUpLogging request).take surroundings state).state.journal =
      (state.journal.install surroundings.opens setup).2 := by
    simp only [Step.take, Log.Journal.setup, resolved]
  obtain ⟨follows, text, others⟩ :=
    Log.Journal.install_follows state.journal (SetupRequest.severity_pos resolved) opened
  refine ⟨rfl, by rw [next, journal]; exact follows, fun _ => rfl, fun file => ?_, ?_⟩
  · rw [journal, text]
    exact String.append_empty.symm
  · intro file _ other
    rw [journal]
    exact others file (other route next)

theorem routes_resetLogging :
    Routes state current surroundings .resetLogging
      (Step.resetLogging.take surroundings state) := by
  have left : (Step.resetLogging.take surroundings state).state.journal =
      { state.journal with level := .notSet, handlers := [] } := Log.Journal.reset_eq state.journal
  refine ⟨rfl, Log.Journal.follows_reset state.journal, fun _ => rfl, fun file => ?_,
    fun file _ _ => ?_⟩
  · rw [left]
    exact String.append_empty.symm
  · rw [left]
    rfl

theorem routes_answer (follows : state.journal.Follows current) (value : Value) :
    Routes state current surroundings (.answer value)
      ((Step.answer value).take surroundings state) := by
  cases bounds : state.settings.boundsFor (surroundings.stack .answer) [value] with
  | error fault =>
    have turn : (Step.answer value).take surroundings state = ⟨.brokeOff fault, "", state⟩ := by
      simp only [Step.take, evaluating, bounds]
    rw [turn]
    refine routes_of_delivers rfl rfl ?_
    rw [Step.entries, Step.events, bounds]
    exact follows.delivers_nil
  | ok bounds' =>
    have turn : (Step.answer value).take surroundings state =
        logged surroundings.toContext state (.answered (Answer.evaluate bounds' value).value)
          (Answer.evaluate bounds' value).events := by
      simp only [Step.take, evaluating, bounds]
    rw [turn]
    refine routes_of_delivers rfl rfl ?_
    rw [Step.entries, Step.events, bounds]
    exact follows.delivers_logAll surroundings.toContext _

theorem routes_log (follows : state.journal.Follows current) (level : Log.Level)
    (name template : String) (arguments : List Value) (incident : Option Log.Incident) :
    Routes state current surroundings (.log level name template arguments incident)
      ((Step.log level name template arguments incident).take surroundings state) :=
  routes_of_delivers rfl rfl (follows.delivers_log surroundings.toContext _)

theorem routes_take (follows : state.journal.Follows current) {step : Step}
    (loggable : step.Loggable surroundings) :
    Routes state current surroundings step (step.take surroundings state) := by
  cases step with
  | setUpLogging request => exact routes_setUpLogging loggable
  | resetLogging => exact routes_resetLogging
  | answer value => exact routes_answer follows value
  | log level name template arguments incident =>
    exact routes_log follows level name template arguments incident
  | _ => exact loggable.elim

end

/-! Runs of steps. -/

def settle (state : State) (steps : List (Surroundings × Step)) : State :=
  steps.foldl (fun state taken => (taken.2.take taken.1 state).state) state

theorem play_append (surroundings : Surroundings) (state : State) (earlier later : List Step) :
    play surroundings state (earlier ++ later) = play surroundings state earlier ++
      play surroundings (settle state (earlier.map (surroundings, ·))) later := by
  induction earlier generalizing state with
  | nil => rfl
  | cons step rest ih =>
    rw [List.cons_append, play, play, ih]
    rfl

def inForceFrom (current : Option Route) (steps : List (Surroundings × Step)) : Option Route :=
  steps.foldl (fun current taken => taken.2.route taken.1 current) current

/-- What steps log one after the other, each event with the route in force at its step. -/
def history (settings : Settings) : Option Route → List (Surroundings × Step) → List Entry
  | _, [] => []
  | current, (surroundings, step) :: rest =>
    step.entries settings current surroundings ++
      history settings (step.route surroundings current) rest

theorem settle_follows {state : State} {current : Option Route}
    (follows : state.journal.Follows current) {steps : List (Surroundings × Step)}
    (loggable : ∀ taken ∈ steps, taken.2.Loggable taken.1) :
    (settle state steps).settings = state.settings ∧
      (settle state steps).journal.Follows (inForceFrom current steps) ∧
      ∀ file, (settle state steps).journal.text file = state.journal.text file ++
        transcript (entriesFor file (history state.settings current steps)) := by
  -- On the steps from the first one on; the route in force is carried along with the state.
  induction steps generalizing state current with
  | nil => exact ⟨rfl, follows, fun _ => String.append_empty.symm⟩
  | cons taken rest ih =>
    obtain ⟨surroundings, step⟩ := taken
    have routes := routes_take follows (loggable _ List.mem_cons_self)
    obtain ⟨settings, follows', text⟩ :=
      ih routes.follows fun taken member => loggable taken (List.mem_cons_of_mem _ member)
    refine ⟨settings.trans routes.settings, follows', fun file => ?_⟩
    change (settle (step.take surroundings state).state rest).journal.text file = _
    rw [text, routes.settings, routes.text, history, Log.entriesFor_append, Log.transcript_append,
      String.append_assoc]

def surroundingsAt (time : String) : Surroundings :=
  { Log.contextAt time with numericsVersion := "1.0", stack := fun _ => 1000 }

theorem resolve_named {level file format : String} {chosen : Log.Level} {layout : Log.Format}
    (choice : Log.Level.choice? level = some chosen)
    (known : Log.Format.ofName? format = some layout) (named : file ≠ "") :
    SetupRequest.resolve ⟨level, some file, format⟩ = .ok ⟨chosen, some file, layout⟩ := by
  simp [SetupRequest.resolve, choice, known, named]

end Reckoner.Session
