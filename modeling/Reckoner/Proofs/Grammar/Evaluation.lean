import Reckoner.Proofs.Grammar.Completeness
import Reckoner.Proofs.Grammar.Soundness

/-!
The evaluator and the grammar: a text is evaluated exactly if it writes a phrase that fits into the
limit, and then to the value of that phrase.
-/
namespace Reckoner.Grammar

open Scan Evaluator
open Cursor (Passes)

theorem meets_whole {tooDeep : Cursor → Fault} {room : Nat} {start goal : Cursor}
    {text : List Char} (tree : Phrase .expression) (spelled : Spells tree.tokens text)
    (passed : start.Passes text goal) (ended : goal.unread = []) :
    Meets tooDeep (tree.nesting ≤ room) (whole tooDeep room) start
      (Yields (whole tooDeep room) start tree.value) goal := by
  have blank : goal.skipSpaces = goal := Cursor.skipSpaces_of_head (by simp [ended])
  have nothing : goal.upcoming = none := by rw [Cursor.upcoming_eq_none, blank, ended]
  have followed : FollowedBy [')'] goal := by simp [FollowedBy, nothing]
  have met := @Complete.expression tooDeep room _ _ _ _ (complete tree) passed spelled followed
  constructor
  · intro fits
    obtain ⟨last, run, same⟩ := met.ends fits
    have stopped := skipSpaces_of_yields_chain (advances_term (advances_factor tooDeep room)) run
    have atGoal : last = goal := by rw [← stopped, same, blank]
    exact ⟨last, yields_whole.mpr ⟨run, atGoal ▸ ended⟩, same⟩
  · intro unfit
    obtain ⟨place, failed⟩ := met.refused unfit
    exact ⟨place, fails_whole.mpr (Or.inl failed)⟩

theorem run_of_spells {limit : Int} {stack : Nat} {text : String} (tree : Phrase .expression)
    (spelled : Spells tree.tokens text.toList)
    (fits : tree.nesting ≤ min limit.toNat stack) :
    (run limit stack text).result = .ok tree.value := by
  have passed := Cursor.passes_of_append 0 text.toList []
  rw [List.append_nil] at passed
  obtain ⟨last, ended, _⟩ := (meets_whole tree spelled passed rfl).ends fits
  exact run_result_eq_ok.mpr ⟨last, ended⟩

theorem run_of_spells_of_unfit {limit : Int} {stack : Nat} {text : String}
    (tree : Phrase .expression) (spelled : Spells tree.tokens text.toList)
    (unfit : ¬tree.nesting ≤ min limit.toNat stack) :
    ∃ place, (run limit stack text).result = .error (nestingFault limit stack place) := by
  have passed := Cursor.passes_of_append 0 text.toList []
  rw [List.append_nil] at passed
  obtain ⟨place, failed⟩ := (meets_whole tree spelled passed rfl).refused unfit
  exact ⟨place, run_result_eq_error.mpr failed⟩

theorem fits_iff {limit : Int} {stack : Nat} (tree : Phrase .expression) :
    tree.nesting ≤ min limit.toNat stack ↔
      (tree.nesting : Int) ≤ limit ∧ tree.nesting ≤ stack := by
  have positive := tree.nesting_pos (by simp)
  omega

theorem spells_of_run {limit : Int} {stack : Nat} {text : String} {value : Float}
    (ended : (run limit stack text).result = .ok value) :
    ∃ tree : Phrase .expression, Spells tree.tokens text.toList ∧
      tree.nesting ≤ min limit.toNat stack ∧ tree.value = value := by
  obtain ⟨last, read⟩ := run_result_eq_ok.mp ended
  obtain ⟨read, ended⟩ := yields_whole.mp read
  obtain ⟨tree, ⟨passed, covered, spelled⟩, fits, same⟩ :=
    parsed_expression (readsFactors _ _) read
  obtain ⟨all, _⟩ := Cursor.split_of_passes covered
  rw [ended, List.append_nil] at all
  exact ⟨tree, all ▸ spelled, fits, same⟩

def InAlphabet (c : Char) : Prop :=
  c.isDigit = true ∨ c = '.' ∨ ('a' ≤ c ∧ c ≤ 'z') ∨ c ∈ ['+', '-', '*', '/', '^', '(', ')', ' ']

theorem Token.inAlphabet {token : Token} {c : Char} (member : c ∈ token.text) : InAlphabet c := by
  cases token with
  | symbol mark =>
    have same : c = mark.char := by simpa [Token.text] using member
    subst same
    cases mark <;> simp [InAlphabet, Symbol.char]
  | number literal =>
    have digit := literal.isNumberChar_of_mem member
    simp only [Cursor.isNumberChar, Bool.or_eq_true, decide_eq_true_eq] at digit
    rcases digit with point | digit
    · exact Or.inr (Or.inl point)
    · exact Or.inl digit
  | name run =>
    have letter := run.letter c member
    simp only [Cursor.isLetter, Bool.and_eq_true, decide_eq_true_eq] at letter
    exact Or.inr (Or.inr (Or.inl letter))

theorem Spells.inAlphabet {tokens : List Token} {text : List Char} (spelled : Spells tokens text) :
    ∀ c ∈ text, InAlphabet c := by
  have blank : ∀ (count : Nat), ∀ c ∈ spaces count, InAlphabet c := by
    intro count c member
    rw [eq_space_of_mem_spaces member]
    simp [InAlphabet]
  induction spelled with
  | blank count => exact blank count
  | token count _ _ ih =>
    intro c member
    rcases List.mem_append.mp member with before | member
    · exact blank count c before
    · rcases List.mem_append.mp member with inside | behind
      · exact Token.inAlphabet inside
      · exact ih c behind

/-- A phrase is evaluated to its value however it is written, if it holds no more factors open than
the limit allows. Else a factor is refused that would be one too many. -/
theorem evaluate_of_spells (bounds : Bounds) (limit : Option Int) (tree : Phrase .expression)
    (text : String) (uncapped : bounds.maxLength ≤ 0) (spelled : Spells tree.tokens text.toList)
    (shallow : min (tree.nesting : Int) (limit.getD bounds.maxDepth) ≤ bounds.stack) :
    ((tree.nesting : Int) ≤ limit.getD bounds.maxDepth →
        (evaluate bounds (.text text) limit).result = .ok tree.value) ∧
      (limit.getD bounds.maxDepth < tree.nesting →
        (Numeral.isWritable (limit.getD bounds.maxDepth) = true →
          ∃ place, (evaluate bounds (.text text) limit).result =
            .error (Fault.atCursor (.tooDeep (limit.getD bounds.maxDepth)) place)) ∧
        (Numeral.isWritable (limit.getD bounds.maxDepth) = false →
          (evaluate bounds (.text text) limit).result =
            .error (Fault.ofInput .unwritableLimit))) := by
  rw [evaluate_of_uncapped uncapped]
  constructor
  · intro within
    exact run_of_spells tree spelled ((fits_iff tree).mpr ⟨within, by omega⟩)
  · intro beyond
    have unfit : ¬tree.nesting ≤ min (limit.getD bounds.maxDepth).toNat bounds.stack := by
      rw [fits_iff]
      omega
    obtain ⟨place, refused⟩ := run_of_spells_of_unfit tree spelled unfit
    have named : limit.getD bounds.maxDepth ≤ bounds.stack := by omega
    constructor
    · intro writable
      exact ⟨place, by rw [refused, nestingFault_of_isWritable named writable]⟩
    · intro unwritable
      rw [refused, nestingFault_of_not_isWritable named unwritable]

def negatedSquare : Phrase .expression :=
  .term (.factor (.signed .minus
    (.power (.number (.single '2' rfl)) (.primary (.number (.single '2' rfl))))))

theorem spells_negatedSquare : Spells negatedSquare.tokens " -2^ 2".toList := by
  have exponent : Spells [.number (.single '2' rfl)] [' ', '2'] :=
    ((Spells.blank 0).cons (not_isName_number _)).indent 1
  have power := (exponent.cons (not_isName_symbol .caret)).cons
    (not_isName_number (.single '2' rfl))
  exact (power.cons (not_isName_symbol .minus)).indent 1

theorem evaluate_negatedSquare :
    (evaluate .standard (.text " -2^ 2") (some 3)).result = .ok negatedSquare.value ∧
      ∃ place, (evaluate .standard (.text " -2^ 2") (some 2)).result =
        .error (Fault.atCursor (.tooDeep 2) place) := by
  have deep := evaluate_of_spells .standard (some 3) negatedSquare " -2^ 2" (by decide)
    spells_negatedSquare (by decide)
  have shallow := evaluate_of_spells .standard (some 2) negatedSquare " -2^ 2" (by decide)
    spells_negatedSquare (by decide)
  exact ⟨deep.1 (by decide), (shallow.2 (by decide)).1 (by decide)⟩

/-- Whatever is evaluated writes a phrase within the limit, and the result is its value. -/
theorem spells_of_evaluate (bounds : Bounds) (limit : Option Int) (text : String) (value : Float)
    (evaluated : (evaluate bounds (.text text) limit).result = .ok value) :
    (∃ tree : Phrase .expression, Spells tree.tokens text.toList ∧
        (tree.nesting : Int) ≤ limit.getD bounds.maxDepth ∧ tree.value = value) ∧
      ∀ c ∈ text.toList, InAlphabet c := by
  obtain ⟨tree, spelled, fits, same⟩ := spells_of_run (run_of_evaluate_result evaluated)
  exact ⟨⟨tree, spelled, ((fits_iff tree).mp fits).1, same⟩, spelled.inAlphabet⟩

theorem spells_of_evaluate_negatedSquare :
    (evaluate .standard (.text " -2^ 2") none).result = .ok negatedSquare.value ∧
      ∃ tree : Phrase .expression, Spells tree.tokens " -2^ 2".toList ∧
        (tree.nesting : Int) ≤ 100 ∧ tree.value = negatedSquare.value := by
  have evaluated : (evaluate .standard (.text " -2^ 2") none).result = .ok negatedSquare.value := by
    rw [evaluate_of_uncapped (by decide)]
    exact run_of_spells negatedSquare spells_negatedSquare (by decide)
  exact ⟨evaluated, (spells_of_evaluate .standard none " -2^ 2" negatedSquare.value evaluated).1⟩

end Reckoner.Grammar
