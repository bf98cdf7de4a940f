import Reckoner.Proofs.CommandLine.OneShot
import Reckoner.Proofs.CommandLine.Refusal

/-!
The expression as an argument of its own behind its flag. Such a run is the same as one with the
expression behind an equals sign, unless the expression is mistaken for a flag.
-/
namespace Reckoner.CommandLine

theorem means_short_eval : Means ['-', 'e'] .eval := by decide

theorem parse_attached (expression : String) :
    parse ["--eval=" ++ expression] = .ok { expression := some (kept expression) } :=
  (changes_attached means_eval rfl (apply_eval expression)).parse_eq

theorem parse_apart {expression : String} (proper : ¬Mistaken expression.toList) :
    parse ["-e", expression] = parse ["--eval=" ++ expression] := by
  have operand := (classify_eq_operand_iff expression.toList).mpr proper
  rw [String.ofList_toList] at operand
  rw [parse_attached]
  exact (changes_apart means_short_eval rfl operand (apply_eval expression)).parse_eq

theorem gather_waiting {flag : Flag} (valued : flag.takesValue = true) (isShort : Bool)
    {request : Request} {argument value : String} {leftover : List String} {role : Option Role}
    (other : role ≠ some .operand) (rest : List (String × Option Role)) :
    gather request leftover ((argument, some (.flag flag isShort none)) :: (value, role) :: rest) =
      .error (.fault (.missingValue flag)) := by
  have alone : readFlag flag isShort none = .ok ⟨[], some flag⟩ := by
    rw [readFlag, readAlone, if_pos valued]
  rw [gather, alone]
  cases role with
  | none => rfl
  | some role =>
    cases role with
    | operand => exact absurd rfl other
    | flag _ _ _ => rfl
    | unknownFlag => rfl

theorem classifyAll_of_mistaken {expression : String} (mistaken : Mistaken expression.toList) :
    (∃ fault, classifyAll [expression] = .error fault) ∨
      ∃ role, role ≠ some .operand ∧ classifyAll [expression] = .ok [(expression, role)] := by
  by_cases mark : expression = "--"
  · subst mark
    exact Or.inr ⟨none, nofun, rfl⟩
  cases classification : classify expression with
  | error fault =>
    rw [classifyAll.eq_3 _ _ (fun same => mark same), classification]
    exact Or.inl ⟨fault, rfl⟩
  | ok role =>
    rw [classifyAll_cons mark classification]
    refine Or.inr ⟨some role, ?_, rfl⟩
    rintro same
    rw [Option.some.inj same, ← String.ofList_toList (s := expression),
      classify_eq_operand_iff] at classification
    exact classification mistaken

theorem parse_apart_of_mistaken {expression : String} (mistaken : Mistaken expression.toList) :
    ∃ cause, parse ["-e", expression] = .error (.fault cause) := by
  have first : classify "-e" = .ok (.flag .eval true none) := rfl
  rw [parse, classifyAll_cons (by decide) first]
  rcases classifyAll_of_mistaken mistaken with ⟨fault, faulty⟩ | ⟨role, other, roles⟩
  · rw [faulty]
    exact ⟨fault, rfl⟩
  · refine ⟨.missingValue .eval, ?_⟩
    rw [roles]
    change ((gather {} [] [("-e", _), (expression, role)]).bind _) = _
    rw [gather_waiting rfl true other]
    rfl

/-- A run for an expression behind its flag reports what a run for it behind an equals sign does
exactly if the expression is not mistaken for a flag, and then the two runs are the same. Else the
command line is refused. So an expression that evaluates to a number is answered by it exactly if it
is not mistaken for a flag. -/
theorem run_apart (surroundings : Surroundings) (state : State) (expression : String)
    (typed : List (Option String)) :
    let apart := run surroundings state ["-e", expression] typed
    let attached := run surroundings state ["--eval=" ++ expression] typed
    (apart.exit = attached.exit ∧ apart.output = attached.output ↔
      ¬Mistaken expression.toList) ∧
    (¬Mistaken expression.toList → apart = attached) ∧
    (Mistaken expression.toList → Refused state apart) ∧
    ∀ bounds value, state.settings.bounds? (surroundings.stack .oneShot) = some bounds →
      (Evaluator.evaluate bounds (.text expression) none).result = .ok value →
      (apart.exit = .ok 0 ∧ apart.output =
          lines [NumberText.format (.ofSetting state.settings.outputPrecision) (.float value)] ↔
        ¬Mistaken expression.toList) := by
  intro apart attached
  have same : ¬Mistaken expression.toList → apart = attached := by
    intro proper
    change run _ _ _ _ = run _ _ _ _
    rw [run, run, parse_apart proper]
  have refused : Mistaken expression.toList → Refused state apart := by
    intro mistaken
    obtain ⟨cause, faulty⟩ := parse_apart_of_mistaken mistaken
    exact refused_of_fault surroundings state typed faulty
  refine ⟨⟨fun agree mistaken => ?_, fun proper => ?_⟩, same, refused, ?_⟩
  · have exit : attached.exit = .ok 2 := agree.1.symm.trans (refused mistaken).exit
    obtain ⟨cause, faulty⟩ := (exit_run_eq_two_iff surroundings state typed).mp exit
    rw [parse_attached] at faulty
    cases faulty
  · rw [same proper]
    exact ⟨rfl, rfl⟩
  · intro bounds value bounded evaluated
    refine ⟨fun answered mistaken => ?_, fun proper => ?_⟩
    · have exit := answered.1.symm.trans (refused mistaken).exit
      cases exit
    · have unmarked : expression ≠ "--" := by
        rintro rfl
        exact proper (by decide)
      have whole : kept expression = some expression := if_neg unmarked
      have settings : Preference.override [] state.settings = state.settings := rfl
      obtain ⟨exit, output, _⟩ :=
        run_requested .nil surroundings (settings ▸ bounded) expression typed
      have answer : (Answer.evaluate bounds (.text expression)).value =
          Result.ofEvaluation (.ok value) := by
        rw [← evaluated]
        rfl
      rw [whole, handedIn, answer] at exit output
      rw [same proper]
      exact ⟨exit, output.trans (displays_value _ expression value)⟩

/-- A negated number in parentheses is accepted, but behind the flag the command line is refused.
The same with a space behind its minus sign is answered. -/
theorem run_apart_negated :
    let surroundings := plainSurroundings
    let state : State := ⟨{}, .initial⟩
    (Evaluator.evaluate .standard (.text "-(2)") none).result.isOk = true ∧
      Refused state (run surroundings state ["-e", "-(2)"] []) ∧
      (run surroundings state ["-e", "- (2)"] []).exit = .ok 0 := by
  intro surroundings state
  have accepted : ∃ value,
      (Evaluator.evaluate .standard (.text "- (2)") none).result = .ok value := ⟨_, rfl⟩
  obtain ⟨value, evaluated⟩ := accepted
  obtain ⟨_, _, refused, _⟩ := run_apart surroundings state "-(2)" []
  obtain ⟨_, _, _, answered⟩ := run_apart surroundings state "- (2)" []
  exact ⟨rfl, refused (by decide), ((answered .standard value rfl evaluated).mpr (by decide)).1⟩

end Reckoner.CommandLine
