import Reckoner.Proofs.Grammar.Completion
import Reckoner.Proofs.Grammar.Evaluation
import Reckoner.Proofs.Reading.Barrier

/-!
What a fault says about the text in front of it: it could still have become an expression, and if a
factor was refused there, only one with more factors open than the limit allows.
-/
namespace Reckoner.Grammar

open Scan Evaluator

theorem take_of_passes {text read : List Char} {stop : Cursor}
    (passed : (Cursor.ofText text).Passes read stop) : text.take stop.position = read := by
  obtain ⟨parts, position⟩ := Cursor.split_of_passes passed
  rw [parts, position, List.take_left]

theorem begun_of_run {limit : Int} {stack : Nat} {text : String} {fault : Fault}
    {spare position : Nat} (failed : (run limit stack text).result = .error fault)
    (named : fault.position = some position) (completable : Completable fault spare) :
    ∃ (tree : Phrase .expression) (rest : List Char),
      Spells tree.tokens (String.ofList (text.toList.take position ++ rest)).toList ∧
        tree.nesting ≤ min limit.toNat stack + spare := by
  have begins := beginsFactors (stopsAt_nestingFault limit stack) (kind_nestingFault limit stack)
    (min limit.toNat stack) spare
  obtain ⟨stop, stops, tree, ⟨read, rest, passed, spelled⟩, fits⟩ :=
    begun_whole begins (run_result_eq_error.mp failed) completable
  refine ⟨tree, rest, ?_, fits⟩
  rw [String.toList_ofList, stops position named, take_of_passes passed]
  exact spelled

theorem not_run_of_nested {limit : Int} {stack : Nat} {text : String} {fault : Fault}
    {position : Nat} (failed : (run limit stack text).result = .error fault)
    (named : fault.position = some position) (nested : fault.cause.kind = .nesting)
    (rest : List Char) (value : Float) :
    (run limit stack (String.ofList (text.toList.take position ++ rest))).result ≠ .ok value := by
  intro ended
  obtain ⟨last, read⟩ := run_result_eq_ok.mp ended
  rw [String.toList_ofList] at read
  cases blocked_whole (run_result_eq_error.mp failed) nested with
  | here _ hopeless => exact hopeless _ _ _ read
  | behind barred =>
    obtain ⟨before, stop, _, passed, stops, never⟩ := barred
    rw [stops position named, take_of_passes passed] at read
    have again := Cursor.passes_of_append 0 before rest
    exact never (Cursor.ofText (before ++ rest)) _ rfl again value last read

/-- The text in front of a fault of grammar goes on to an expression. The text in front of a
refused factor does so with one more factor open, but not within the limit. -/
theorem evaluate_of_fault (bounds : Bounds) (limit : Option Int) (text : String) (fault : Fault)
    (position : Nat) (uncapped : bounds.maxLength ≤ 0)
    (failed : (evaluate bounds (.text text) limit).result = .error fault)
    (named : fault.position = some position) :
    (fault.cause.kind = .grammar → ∃ rest value,
      (evaluate bounds (.text (String.ofList (text.toList.take position ++ rest))) limit).result =
        .ok value) ∧
    (fault.cause.kind = .nesting →
      (∀ rest value,
        (evaluate bounds (.text (String.ofList (text.toList.take position ++ rest))) limit).result ≠
          .ok value) ∧
      (0 ≤ limit.getD bounds.maxDepth → limit.getD bounds.maxDepth < bounds.stack →
        ∃ rest value,
          (evaluate bounds (.text (String.ofList (text.toList.take position ++ rest)))
            (some (limit.getD bounds.maxDepth + 1))).result = .ok value)) := by
  simp only [evaluate_of_uncapped uncapped] at failed ⊢
  have placed : fault ≠ Fault.ofInput .unwritableLimit := by
    rintro rfl
    cases named
  refine ⟨fun ungrammatical => ?_, fun nested => ⟨not_run_of_nested failed named nested, ?_⟩⟩
  · have completable : Completable fault 0 :=
      ⟨by simp [ungrammatical], placed, fun nested => by simp [ungrammatical] at nested⟩
    obtain ⟨tree, rest, spelled, fits⟩ := begun_of_run failed named completable
    exact ⟨rest, tree.value, run_of_spells tree spelled fits⟩
  · intro positive shallow
    have completable : Completable fault 1 := ⟨by simp [nested], placed, fun _ => Nat.one_pos⟩
    obtain ⟨tree, rest, spelled, fits⟩ := begun_of_run failed named completable
    refine ⟨rest, tree.value, run_of_spells tree spelled ?_⟩
    rw [Option.getD_some]
    omega

theorem evaluate_of_fault_sine :
    (evaluate .standard (.text "sin -2") (some 2)).result = .error ⟨.tooDeep 2, some 5, some '2'⟩ ∧
      (∃ rest value,
        (evaluate .standard (.text (String.ofList ("sin -2".toList.take 5 ++ rest)))
          (some 3)).result = .ok value) ∧
      ∃ rest value,
        (evaluate .standard (.text (String.ofList ("sin -)".toList.take 5 ++ rest)))
          none).result = .ok value := by
  have deep : (evaluate .standard (.text "sin -2") (some 2)).result =
      .error ⟨.tooDeep 2, some 5, some '2'⟩ := rfl
  have ungrammatical : (evaluate .standard (.text "sin -)") none).result =
      .error ⟨.unexpected (some ')'), some 5, some ')'⟩ := rfl
  have refused := evaluate_of_fault .standard (some 2) "sin -2" _ 5 (by decide) deep rfl
  have stopped := evaluate_of_fault .standard none "sin -)" _ 5 (by decide) ungrammatical rfl
  exact ⟨deep, (refused.2 rfl).2 (by decide) (by decide), stopped.1 rfl⟩

end Reckoner.Grammar
