import Reckoner.Proofs.CommandLine.OneShot
import Reckoner.Proofs.Grammar.Raise

/-!
Sessions at the prompt. Each line is answered as if it were the only one, with what a run for the
line alone prints, and nothing is read once the user has left.
-/
namespace Reckoner.CommandLine

open Prompt

/-! Lines. -/

def Leaves (line : String) : Prop :=
  (Text.trimBlanks line).map Char.toLower = "quit" ∨
    (Text.trimBlanks line).map Char.toLower = "exit"

/-- A text is what every run for an expression prints under certain settings and in one format, if
the evaluation does not use up the stack of that run. -/
def PrintedAlone (settings : Settings) (format : OutputFormat) (expression output : String) :
    Prop :=
  ∀ preferences arguments, Preferences preferences arguments →
    (requested preferences none).format = format →
    ∀ surroundings state typed bounds, Preference.override preferences state.settings = settings →
      settings.bounds? (surroundings.stack .oneShot) = some bounds →
      (Evaluator.evaluate bounds (.text expression) none).Fits →
      (run surroundings state (arguments ++ ["--eval=" ++ expression]) typed).output = output

/-- What a line that stays is answered with. Any expression is answered with its result. Any but the
mark for the end of the flags can be handed to a run of its own, which prints the same unless one of
the two uses up its stack. -/
structure Answers (bounds : Bounds) (settings : Settings) (format : OutputFormat)
    (line answer : String) : Prop where
  blank : Text.trimBlanks line = "" → answer = ""
  help : (Text.trimBlanks line).map Char.toLower = "help" → answer = Prompt.helpText
  evaluated : Text.trimBlanks line ≠ "" → (Text.trimBlanks line).map Char.toLower ≠ "help" →
    answer = (Answer.evaluate bounds (.text (Text.trimBlanks line))).value.printed
      settings.outputPrecision format (Text.trimBlanks line) ∧
    (Text.trimBlanks line ≠ "--" →
      (Evaluator.evaluate bounds (.text (Text.trimBlanks line)) none).Fits →
      PrintedAlone settings format (Text.trimBlanks line) answer)

theorem printedAlone_printed {settings : Settings} {stack : Nat} {bounds : Bounds}
    (bounded : settings.bounds? stack = some bounds) (format : OutputFormat) {expression : String}
    (unmarked : expression ≠ "--")
    (fits : (Evaluator.evaluate bounds (.text expression) none).Fits) :
    PrintedAlone settings format expression
      ((Answer.evaluate bounds (.text expression)).value.printed settings.outputPrecision format
        expression) := by
  intro preferences arguments given sameFormat surroundings state typed bounds' sameSettings
    bounded' fits'
  have whole : kept expression = some expression := if_neg unmarked
  have answer := (Evaluator.sameLimits_of_bounds? bounded bounded').answer_eq fits fits'
  rw [← sameSettings] at bounded'
  obtain ⟨_, output, _⟩ := run_requested given surroundings bounded' expression typed
  rw [output, whole, sameFormat, sameSettings, handedIn, answer]
  rfl

theorem answer_of_leaves {line : String} (leaves : Leaves line) (bounds : Bounds)
    (precision : Option Int) (format : OutputFormat) :
    answer bounds precision format line = none := by
  have present : Text.trimBlanks line ≠ "" := by
    intro blank
    rw [Leaves, blank, String.map_eq_empty.mpr rfl] at leaves
    revert leaves
    decide
  have word : (decide ((Text.trimBlanks line).map Char.toLower = "quit") ||
      decide ((Text.trimBlanks line).map Char.toLower = "exit")) = true := by
    rcases leaves with quit | exit
    · rw [decide_eq_true quit, Bool.true_or]
    · rw [decide_eq_true exit, Bool.or_true]
  simp only [answer, Command.ofLine, if_neg present, if_pos word]

def reply (bounds : Bounds) (precision : Option Int) (format : OutputFormat) (line : String) :
    String :=
  ((answer bounds precision format line).map (·.value)).getD ""

theorem answers_reply {line : String} (stays : ¬Leaves line) {stack : Nat} {bounds : Bounds}
    {settings : Settings} (bounded : settings.bounds? stack = some bounds)
    (format : OutputFormat) :
    (answer bounds settings.outputPrecision format line).isSome ∧
      Answers bounds settings format line (reply bounds settings.outputPrecision format line) := by
  have word : ¬(decide ((Text.trimBlanks line).map Char.toLower = "quit") ||
      decide ((Text.trimBlanks line).map Char.toLower = "exit")) = true := by
    simpa [Leaves] using stays
  simp only [reply, answer, Command.ofLine]
  by_cases blank : Text.trimBlanks line = ""
  · have other : (Text.trimBlanks line).map Char.toLower ≠ "help" := by
      rw [blank, String.map_eq_empty.mpr rfl]
      decide
    rw [if_pos blank]
    exact ⟨rfl, fun _ => rfl, fun help => (other help).elim, fun present => (present blank).elim⟩
  by_cases help : (Text.trimBlanks line).map Char.toLower = "help"
  · rw [if_neg blank, if_neg word, if_pos help]
    exact ⟨rfl, fun empty => (blank empty).elim, fun _ => rfl, fun _ other => (other help).elim⟩
  · rw [if_neg blank, if_neg word, if_neg help]
    exact ⟨rfl, fun empty => (blank empty).elim, fun asked => (help asked).elim, fun _ _ =>
      ⟨rfl, printedAlone_printed bounded format⟩⟩

/-! Sessions. -/

/-- What ends a session, with the parting words: a line that leaves, an interruption, or the end of
the lines. Whatever is typed behind it does not matter. -/
inductive Closes : List (Option String) → String → Prop where
  | line {line : String} (leaves : Leaves line) (later : List (Option String)) :
      Closes (some line :: later) farewell
  | interruption (later : List (Option String)) : Closes (none :: later) ("\n" ++ farewell)
  | ending : Closes [] ("\n" ++ farewell)

theorem exists_closes (typed : List (Option String)) :
    ∃ (lines : List String) (closing : List (Option String)) (parting : String),
      typed = lines.map some ++ closing ∧ (∀ line ∈ lines, ¬Leaves line) ∧
        Closes closing parting := by
  induction typed with
  | nil => exact ⟨[], [], _, rfl, by simp, .ending⟩
  | cons first later ih =>
    cases first with
    | none => exact ⟨[], none :: later, _, rfl, by simp, .interruption later⟩
    | some line =>
      by_cases leaves : Leaves line
      · exact ⟨[], some line :: later, _, rfl, by simp, .line leaves later⟩
      · obtain ⟨lines, closing, parting, rfl, stay, closes⟩ := ih
        have stays : ∀ line' ∈ line :: lines, ¬Leaves line' :=
          List.forall_mem_cons.mpr ⟨leaves, stay⟩
        exact ⟨line :: lines, closing, parting, rfl, stays, closes⟩

theorem Closes.of_take {closing closing' : List (Option String)} {parting : String}
    (closes : Closes closing parting) (same : closing'.take 1 = closing.take 1) :
    Closes closing' parting := by
  cases closing' with
  | nil =>
    cases closes with
    | line leaves later => cases same
    | interruption later => cases same
    | ending => exact .ending
  | cons first later' =>
    cases closes with
    | line leaves later =>
      cases same
      exact .line leaves later'
    | interruption later =>
      cases same
      exact .interruption later'
    | ending => cases same

section Talk

variable {bounds : Bounds} {precision : Option Int} {format : OutputFormat}

theorem dialogue_of_closes {closing : List (Option String)} {parting : String}
    (closes : Closes closing parting) :
    dialogue bounds precision format closing = ⟨invitation ++ parting, []⟩ := by
  cases closes with
  | line leaves later => rw [dialogue, answer_of_leaves leaves]
  | interruption later => rw [dialogue, String.append_assoc]
  | ending => rw [dialogue, String.append_assoc]

theorem expressions_of_closes {closing : List (Option String)} {parting : String}
    (closes : Closes closing parting) : expressions closing = [] := by
  cases closes with
  | @line line leaves later =>
    have none := answer_of_leaves leaves .standard none .human
    rw [answer] at none
    rw [expressions]
    split at none <;> simp_all
  | interruption later => rfl
  | ending => rfl

theorem expressions_congr {closing closing' : List (Option String)} {parting : String}
    (closes : Closes closing parting) (closes' : Closes closing' parting) (lines : List String) :
    expressions (lines.map some ++ closing) = expressions (lines.map some ++ closing') := by
  induction lines with
  | nil => exact (expressions_of_closes closes).trans (expressions_of_closes closes').symm
  | cons line lines ih =>
    rw [List.map_cons, List.cons_append, List.cons_append, expressions, expressions, ih]

theorem dialogue_congr {closing closing' : List (Option String)} {parting : String}
    (closes : Closes closing parting) (closes' : Closes closing' parting) (lines : List String) :
    dialogue bounds precision format (lines.map some ++ closing) =
      dialogue bounds precision format (lines.map some ++ closing') := by
  induction lines with
  | nil =>
    rw [List.map_nil, List.nil_append, List.nil_append, dialogue_of_closes closes,
      dialogue_of_closes closes']
  | cons line lines ih =>
    rw [List.map_cons, List.cons_append, List.cons_append, dialogue, dialogue, ih]

theorem value_dialogue {closing : List (Option String)} {parting : String}
    (closes : Closes closing parting) {lines : List String}
    (answered : ∀ line ∈ lines, (answer bounds precision format line).isSome) :
    (dialogue bounds precision format (lines.map some ++ closing)).value =
      String.join (lines.map fun line => invitation ++ reply bounds precision format line) ++
        invitation ++ parting := by
  induction lines with
  | nil => simp [dialogue_of_closes closes]
  | cons line lines ih =>
    obtain ⟨given, known⟩ := Option.isSome_iff_exists.mp (answered line List.mem_cons_self)
    have others := ih fun line member => answered line (List.mem_cons_of_mem _ member)
    have first : reply bounds precision format line = given.value := by
      rw [reply, known]
      rfl
    rw [List.map_cons, List.cons_append, dialogue, known]
    simp only [others, first, List.map_cons, String.join_cons, String.append_assoc]

end Talk

theorem perform_session (preferences : List Preference) (bounds : Bounds) (precision : Option Int)
    (numericsVersion : String) (typed : List (Option String)) :
    (requested preferences none).perform bounds precision numericsVersion typed =
      (0, session bounds precision (requested preferences none).format typed) := by
  have plain := plain_requested preferences none
  rw [Request.perform, Request.perform?, plain.version, plain.healthCheck]
  rfl

section Run

variable {preferences : List Preference} {arguments : List String} {state : State} {bounds : Bounds}
  {lines : List String} {closing closing' : List (Option String)} {parting : String}

theorem run_closes (given : Preferences preferences arguments) (surroundings : Surroundings)
    (bounded : (Preference.override preferences state.settings).bounds?
      (surroundings.stack .prompt) = some bounds)
    (stay : ∀ line ∈ lines, ¬Leaves line) (closes : Closes closing parting) :
    let settings := Preference.override preferences state.settings
    let outcome := run surroundings state arguments (lines.map some ++ closing)
    outcome.exit = .ok 0 ∧ outcome.state.settings = settings ∧
      outcome.output = banner ++
        String.join (lines.map fun line => invitation ++
          reply bounds settings.outputPrecision (requested preferences none).format line) ++
        invitation ++ parting := by
  have caller : (requested preferences none).caller = .prompt := caller_requested preferences none
  obtain ⟨exit, output, settings⟩ := carryOut_of_plain (plain_requested preferences none)
    surroundings state (lines.map some ++ closing) (caller.symm ▸ bounded)
  rw [perform_session] at exit output
  have talk := value_dialogue closes fun line member =>
    (answers_reply (stay line member) bounded (requested preferences none).format).1
  rw [run, parse_preferences given]
  refine ⟨exit, settings, output.trans ?_⟩
  refine (congrArg (banner ++ ·) talk).trans ?_
  simp only [String.append_assoc]

theorem run_congr (given : Preferences preferences arguments) (surroundings : Surroundings)
    (bounded : (Preference.override preferences state.settings).bounds?
      (surroundings.stack .prompt) = some bounds)
    (closes : Closes closing parting) (closes' : Closes closing' parting) (lines : List String) :
    run surroundings state arguments (lines.map some ++ closing) =
      run surroundings state arguments (lines.map some ++ closing') := by
  have same : (requested preferences none).carryOut surroundings state (lines.map some ++ closing) =
      (requested preferences none).carryOut surroundings state (lines.map some ++ closing') := by
    have caller : (requested preferences none).caller = .prompt :=
      caller_requested preferences none
    refine carryOut_congr (caller.symm ▸ bounded) ?_ fun precision => ?_
    · have plain := plain_requested preferences none
      rw [Request.evaluated, Request.evaluated, plain.version, plain.healthCheck]
      exact congrArg (List.map Value.text) (expressions_congr closes closes' lines)
    · rw [perform_session, perform_session, session, session, dialogue_congr closes closes']
  rw [run, run, parse_preferences given]
  exact same

/-- A session answers one line after the other until the user leaves. An answer depends on nothing
but the line, and it is what a run for this line alone prints. The settings stay as they are. -/
theorem run_session (given : Preferences preferences arguments) (surroundings : Surroundings)
    (bounded : (Preference.override preferences state.settings).bounds?
      (surroundings.stack .prompt) = some bounds) :
    let settings := Preference.override preferences state.settings
    ∃ reply : String → String,
      (∀ line, ¬Leaves line →
        Answers bounds settings (requested preferences none).format line (reply line)) ∧
      ∀ typed, ∃ (lines : List String) (closing : List (Option String)) (parting : String),
        typed = lines.map some ++ closing ∧ (∀ line ∈ lines, ¬Leaves line) ∧
        Closes closing parting ∧
        let outcome := run surroundings state arguments typed
        outcome.exit = .ok 0 ∧ outcome.state.settings = settings ∧
        outcome.output = banner ++
          String.join (lines.map fun line => invitation ++ reply line) ++ invitation ++ parting ∧
        ∀ closing', closing'.take 1 = closing.take 1 →
          run surroundings state arguments (lines.map some ++ closing') = outcome := by
  refine ⟨fun line => reply bounds (Preference.override preferences state.settings).outputPrecision
    (requested preferences none).format line,
    fun line stays => (answers_reply stays bounded _).2, fun typed => ?_⟩
  obtain ⟨lines, closing, parting, rfl, stay, closes⟩ := exists_closes typed
  obtain ⟨exit, settings, output⟩ := run_closes given surroundings bounded stay closes
  exact ⟨lines, closing, parting, rfl, stay, closes, exit, settings, output, fun closing' same =>
    run_congr given surroundings bounded (closes.of_take same) closes lines⟩

theorem run_session_interrupted :
    let outcome := run plainSurroundings ⟨{}, .initial⟩ ["-p5"]
      [some " ( ", none, some "quit"]
    outcome.exit = .ok 0 ∧ outcome.output = banner ++
      ">>> Error: Unexpected: end of input\n  (\n   ^\n>>> \nGoodbye.\n" := by
  have precision : (Preference.precision 5).Written ["-p" ++ "5"] :=
    .joined rfl ⟨rfl, by decide⟩
  have given : Preferences [.precision 5] ["-p5"] := .cons precision .nil
  have bounded : (Preference.override [.precision 5]
      (⟨{}, .initial⟩ : State).settings).bounds? 1000 = some .standard := rfl
  obtain ⟨reply, answers, sessions⟩ := run_session given plainSurroundings bounded
  obtain ⟨lines, closing, parting, whole, stay, closes, exit, _, output, _⟩ :=
    sessions [some " ( ", none, some "quit"]
  have stripped : Text.trimBlanks " ( " = "(" := rfl
  have word : ("(".map Char.toLower).toList = ['('] := by
    rw [String.toList_map]
    rfl
  have stays : ¬Leaves " ( " := by
    rw [Leaves, stripped, ← String.toList_inj, ← String.toList_inj, word]
    decide
  have other : (Text.trimBlanks " ( ").map Char.toLower ≠ "help" := by
    rw [stripped, ne_eq, ← String.toList_inj, word]
    decide
  obtain ⟨answer, _⟩ := (answers " ( " stays).evaluated (by decide) other
  refine ⟨exit, output.trans ?_⟩
  -- The first line stays and the interruption closes, so the split of what is typed is settled.
  cases lines with
  | nil =>
    obtain rfl : closing = [some " ( ", none, some "quit"] := whole.symm
    cases closes with
    | line leaves later => exact absurd leaves stays
  | cons line others =>
    obtain ⟨first, rest⟩ := List.cons.inj whole
    obtain rfl := Option.some.inj first
    cases others with
    | nil =>
      obtain rfl : closing = [none, some "quit"] := rest.symm
      cases closes with
      | interruption later =>
        rw [List.map_singleton, answer]
        rfl
    | cons line others => cases (List.cons.inj rest).1

end Run

end Reckoner.CommandLine
