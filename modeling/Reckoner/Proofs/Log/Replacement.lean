import Reckoner.Proofs.Log.Routing

/-!
Set-ups that fail. A name that is not known is refused before anything is touched. A file is opened
only when the handlers from before are gone, so one that cannot be opened leaves logging with the
new level and without any handlers.
-/
namespace Reckoner.Log

variable {opens : String → Option String} {request : SetupRequest} {setup : Setup}
  {fault : SetupFault}

theorem SetupRequest.fault_of_resolve (unknown : request.resolve = .error fault) :
    fault = .unknownLevel request.level ∨ fault = .unknownFormat request.format := by
  unfold SetupRequest.resolve at unknown
  split at unknown
  · exact Or.inl (Except.error.inj unknown).symm
  · split at unknown
    · exact Or.inr (Except.error.inj unknown).symm
    · cases unknown

namespace Journal

theorem install_of_fault {journal : Journal}
    (failed : (journal.install opens setup).1 = .error fault) :
    ∃ name, setup.file = some name ∧ opens name = none ∧ fault = .cannotOpen name ∧
      (journal.install opens setup).2 = { journal with level := setup.level, handlers := [] } := by
  cases opened : setup.route? opens with
  | some route =>
    rw [install_of_route? journal opened] at failed
    cases failed
  | none =>
    obtain ⟨name, named, missing, installed⟩ := install_of_closed journal opened
    rw [installed] at failed ⊢
    exact ⟨name, named, missing, (Except.error.inj failed).symm, rfl⟩

/-- What comes of an event without handlers: its bare message if it is a warning or more and reaches
the level, or the complaint that it has no message. -/
structure Bare (level : Level) (context : Context) (event : Event) (text : String) : Prop where
  silent : event.level.reaches level = false ∨ event.level.reaches .warning = false → text = ""
  message : event.level.reaches level = true → event.level.reaches .warning = true →
    ∀ record, event.record = .ok record → text = record.bareLine
  complaint : event.level.reaches level = true → event.level.reaches .warning = true →
    ∀ fault, event.record = .error fault → text = context.complaint event fault

theorem bare_lastResort {level : Level} {event : Event}
    (reached : event.level.reaches level = true) (context : Context) :
    Bare level context event (lastResort context event) := by
  constructor
  · rintro (beneath | mild)
    · rw [reached] at beneath
      cases beneath
    · simp only [lastResort, mild, Bool.false_eq_true, if_false]
  · intro _ grave record filled
    simp only [lastResort, grave, filled, if_true]
  · intro _ grave fault unfilled
    simp only [lastResort, grave, unfilled, if_true]

theorem log_of_cleared {journal : Journal} {level : Level} (unrouted : journal.handlers = [])
    (same : journal.level = level) (positive : 0 < level.severity) (context : Context)
    (event : Event) :
    ∃ text, journal.log context event = (text, journal) ∧ Bare level context event text := by
  have threshold : journal.threshold = level := by
    rw [Journal.threshold, same, if_neg (Int.ne_of_gt positive)]
  rw [log_of_unrouted unrouted, admits, threshold]
  cases reached : event.level.reaches level with
  | false =>
    rw [Bool.and_false]
    exact ⟨"", rfl, fun _ => rfl, fun above => absurd above (by simp [reached]),
      fun above => absurd above (by simp [reached])⟩
  | true =>
    have above : level.severity ≤ event.level.severity := of_decide_eq_true reached
    rw [decide_eq_true (Int.lt_of_lt_of_le positive above), Bool.true_and]
    exact ⟨_, rfl, bare_lastResort reached context⟩

end Journal

end Reckoner.Log

namespace Reckoner.Session

open CommandLine (State Surroundings)
open Log (Context Event Handler Setup SetupFault SetupRequest transcript entriesFor)

/-- A set-up that fails over a name leaves the whole state as it was, whichever handlers there are.
One that fails over its file leaves the settings and the files as they were, but takes all handlers
away and keeps the new level: then an event comes to no handler and no file, and to the error stream
as its bare message if it is a warning or more and reaches this level, until later steps set logging
up again. -/
theorem take_setUpLogging_of_fault {surroundings : Surroundings} {state : State}
    {request : SetupRequest} {fault : SetupFault}
    (failed : ((Step.setUpLogging request).take surroundings state).reply = .setUp (.error fault)) :
    let left := ((Step.setUpLogging request).take surroundings state).state
    ((fault = .unknownLevel request.level ∨ fault = .unknownFormat request.format) ∧
        left = state) ∨
      ∃ setup name, request.resolve = .ok setup ∧ setup.file = some name ∧
        surroundings.opens name = none ∧ fault = .cannotOpen name ∧
        left = { state with
          journal := { state.journal with level := setup.level, handlers := [] } } ∧
        (∀ (context : Context) (event : Event), ∃ text,
          left.journal.log context event = (text, left.journal) ∧
            Log.Journal.Bare setup.level context event text) ∧
        ∀ steps, (∀ taken ∈ steps, taken.2.Loggable taken.1) → ∀ file,
          (settle left steps).journal.text file = state.journal.text file ++
            transcript (entriesFor file (history state.settings none steps)) := by
  intro left
  have reply : (state.journal.setup surroundings.opens request).1 = .error fault :=
    Reply.setUp.inj failed
  have journal : left =
      { state with journal := (state.journal.setup surroundings.opens request).2 } := rfl
  cases resolved : request.resolve with
  | error other =>
    simp only [Log.Journal.setup, resolved] at reply journal
    obtain rfl := Except.error.inj reply
    exact Or.inl ⟨SetupRequest.fault_of_resolve resolved, journal⟩
  | ok setup =>
    simp only [Log.Journal.setup, resolved] at reply journal
    obtain ⟨name, named, missing, same, cleared⟩ := Log.Journal.install_of_fault reply
    rw [cleared] at journal
    have positive := SetupRequest.severity_pos resolved
    have unrouted : left.journal.handlers = [] := by rw [journal]
    have level : left.journal.level = setup.level := by rw [journal]
    refine Or.inr ⟨setup, name, rfl, named, missing, same, journal,
      Log.Journal.log_of_cleared unrouted level positive, ?_⟩
    intro steps loggable file
    have files : left.journal.text file = state.journal.text file := by rw [journal]; rfl
    have settings : left.settings = state.settings := by rw [journal]
    have follows : left.journal.Follows none :=
      Log.Journal.follows_of_unrouted unrouted
    rw [(settle_follows follows loggable).2.2, files, settings]

def closedDirectories : Surroundings :=
  { surroundingsAt "2" with opens := fun name => if '/' ∈ name.toList then none else some name }

def attended : State :=
  let state := settle start [(surroundingsAt "1", .setUpLogging ⟨"DEBUG", some "a", "text"⟩)]
  { state with journal := state.journal.add (.foreign "MemoryHandler" 0 0) }

theorem take_setUpLogging_of_fault_missing :
    let turn := (Step.setUpLogging ⟨"ERROR", some "b/c", "text"⟩).take closedDirectories attended
    turn.reply = .setUp (.error (.cannotOpen "b/c")) ∧
      attended.journal.level = .debug ∧
      attended.journal.handlers =
        [.stream .text, .file "a" .text, .foreign "MemoryHandler" 0 0] ∧
      turn.state.journal.level = .error ∧ turn.state.journal.handlers = [] := by
  intro turn
  have debug : Log.Level.choice? "DEBUG" = some .debug := by decide +kernel
  have error : Log.Level.choice? "ERROR" = some .error := by decide +kernel
  have text : Log.Format.ofName? "text" = some .text := by decide +kernel
  have chosen := resolve_named error text (show "b/c" ≠ "" by decide)
  have before : attended.journal.level = .debug ∧ attended.journal.handlers =
      [.stream .text, .file "a" .text, .foreign "MemoryHandler" 0 0] := by
    have first := resolve_named debug text (show "a" ≠ "" by decide)
    simp only [attended, settle, List.foldl_cons, List.foldl_nil, Step.take, Log.Journal.setup,
      first]
    exact ⟨rfl, rfl⟩
  have outcome : (attended.journal.setup closedDirectories.opens ⟨"ERROR", some "b/c", "text"⟩).1 =
      .error (.cannotOpen "b/c") := by
    simp only [Log.Journal.setup, chosen]
    rfl
  have failed : turn.reply = .setUp (.error (.cannotOpen "b/c")) := congrArg Reply.setUp outcome
  refine ⟨failed, before.1, before.2, ?_⟩
  rcases take_setUpLogging_of_fault failed with
    ⟨unknown, _⟩ | ⟨setup, name, resolved, _, _, _, cleared, _⟩
  · simp at unknown
  · obtain rfl := Except.ok.inj (chosen.symm.trans resolved)
    have left : turn.state.journal =
        { attended.journal with level := .error, handlers := [] } :=
      congrArg State.journal cleared
    rw [left]
    exact ⟨rfl, rfl⟩

end Reckoner.Session
