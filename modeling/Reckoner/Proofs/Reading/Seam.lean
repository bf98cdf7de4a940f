import Reckoner.Proofs.Reading.Span
import Reckoner.Scan

/-!
Two cursors side by side in one text, of which the second text has more spaces at a seam between two
tokens: they are at the same place in front of the seam, and the second one is further on by the
spaces behind it.
-/
namespace Reckoner

/-- Two texts do not run together into one token: at their border no number goes on and no name. -/
def Apart (before behind : List Char) : Prop :=
  ∀ c d, before.getLast? = some c → behind.head? = some d →
    ¬(Cursor.isNumberChar c = true ∧ Cursor.isNumberChar d = true) ∧
      ¬(Cursor.isLetter c = true ∧ Cursor.isLetter d = true)

/-- A place between two tokens of a text, and how many spaces are put in there. -/
structure Seam where
  before : List Char
  behind : List Char
  count : Nat
  apart : Apart before behind

namespace Seam

/-- Where a position of the text lies once the spaces are put in. -/
def shift (seam : Seam) (position : Nat) : Nat :=
  if position < seam.before.length then position else position + seam.count

def moveNote (seam : Seam) (note : Note) : Note :=
  { note with position := seam.shift note.position }

/-- Two cursors before the same characters, in the text and in the one with the spaces. In front of
the spaces the first one has already come to what lies behind them. -/
inductive Near (seam : Seam) : Cursor → Cursor → Prop where
  | ahead {read rest : List Char} (split : seam.before = read ++ rest) :
      Near seam ⟨read.length, rest ++ seam.behind⟩
        ⟨read.length, rest ++ (spaces seam.count ++ seam.behind)⟩
  | beyond {place : Nat} {rest : List Char} (further : seam.before.length ≤ place) :
      Near seam ⟨place, rest⟩ ⟨place + seam.count, rest⟩

inductive Aligned (seam : Seam) : Cursor → Cursor → Prop where
  | ahead {read rest : List Char} {c : Char} (split : seam.before = read ++ c :: rest) :
      Aligned seam ⟨read.length, c :: (rest ++ seam.behind)⟩
        ⟨read.length, c :: (rest ++ (spaces seam.count ++ seam.behind))⟩
  | beyond {place : Nat} {rest : List Char} (further : seam.before.length ≤ place) :
      Aligned seam ⟨place, rest⟩ ⟨place + seam.count, rest⟩

variable {seam : Seam} {first second : Cursor}

theorem near_ofText (seam : Seam) :
    seam.Near (Cursor.ofText (seam.before ++ seam.behind))
      (Cursor.ofText (seam.before ++ (spaces seam.count ++ seam.behind))) :=
  @Near.ahead seam [] _ rfl

namespace Aligned

theorem near (aligned : seam.Aligned first second) : seam.Near first second := by
  cases aligned with
  | ahead split => exact .ahead split
  | beyond further => exact .beyond further

theorem head_eq (aligned : seam.Aligned first second) :
    second.unread.head? = first.unread.head? := by
  cases aligned <;> rfl

theorem position_eq (aligned : seam.Aligned first second) :
    second.position = seam.shift first.position := by
  cases aligned with
  | @ahead read rest c split =>
    have inside : read.length < seam.before.length := by simp [split]
    exact (if_pos inside).symm
  | beyond further => exact (if_neg (Nat.not_lt.mpr further)).symm

theorem beyond_add {place : Nat} (further : seam.before.length ≤ place) (more : Nat)
    (rest : List Char) : seam.Aligned ⟨place + more, rest⟩ ⟨place + seam.count + more, rest⟩ := by
  rw [Nat.add_right_comm]
  exact .beyond (Nat.le_add_right_of_le further)

theorem advance (aligned : seam.Aligned first second) : seam.Near first.advance second.advance := by
  cases aligned with
  | @ahead read rest c split =>
    have split' : seam.before = (read ++ [c]) ++ rest := by rw [split, List.append_assoc]; rfl
    have near := Near.ahead split'
    rw [List.length_append, List.length_singleton] at near
    exact near
  | beyond further => exact (beyond_add further 1 _).near

end Aligned

theorem Near.skipSpaces (near : seam.Near first second) :
    seam.Aligned first.skipSpaces second.skipSpaces := by
  cases near with
  | beyond further => exact .beyond_add further _ _
  | @ahead read rest split =>
    -- On what is left in front of the seam, which may be spaces all the way.
    induction rest generalizing read with
    | nil =>
      have skipped := Cursor.skipSpaces_of_passes
        (Cursor.passes_of_append read.length (spaces seam.count) seam.behind)
      rw [length_spaces] at skipped
      have further : seam.before.length ≤ read.length := by simp [split]
      rw [List.nil_append, List.nil_append, skipped]
      exact .beyond_add further _ _
    | cons c rest ih =>
      by_cases blank : c = ' '
      · subst blank
        have split' : seam.before = (read ++ [' ']) ++ rest := by
          rw [split, List.append_assoc]
          rfl
        have skipped : ∀ text, Cursor.skipSpaces ⟨read.length, ' ' :: text⟩ =
            Cursor.skipSpaces ⟨read.length + 1, text⟩ :=
          fun text => @Cursor.skipSpaces_of_passes _ _ 1 (Cursor.passes_of_append _ [' '] text)
        have aligned := ih split'
        rw [List.length_append, List.length_singleton] at aligned
        rw [List.cons_append, List.cons_append, skipped, skipped]
        exact aligned
      · rw [Cursor.skipSpaces_of_head (by simpa using blank),
          Cursor.skipSpaces_of_head (by simpa using blank)]
        exact .ahead split

theorem Near.upcoming_eq (near : seam.Near first second) : second.upcoming = first.upcoming :=
  near.skipSpaces.head_eq

theorem takeWhile_of_border {holds : Char → Bool} {text others : List Char} (place : Nat)
    (present : text ≠ [])
    (ends : ∀ c d, text.getLast? = some c → others.head? = some d →
      ¬(holds c = true ∧ holds d = true)) :
    Cursor.takeWhile ⟨place, text ++ others⟩ holds =
      (text.takeWhile holds,
        ⟨place + (text.takeWhile holds).length, text.dropWhile holds ++ others⟩) := by
  have inside : ∀ c ∈ text.takeWhile holds, holds c = true :=
    fun c member => List.all_eq_true.mp List.all_takeWhile c member
  have passed := Cursor.passes_of_append place (text.takeWhile holds)
    (text.dropWhile holds ++ others)
  rw [← List.append_assoc, List.takeWhile_append_dropWhile] at passed
  refine Cursor.takeWhile_of_passes holds passed inside fun d head => ?_
  have stop := List.head?_dropWhile_not holds text
  cases left : text.dropWhile holds with
  | cons c rest =>
    simp only [left, List.cons_append, List.head?_cons, Option.some.injEq] at stop head
    subst head
    simpa using stop
  | nil =>
    -- The run is the whole text, so its last character is of the class.
    have run : text.takeWhile holds = text := by
      have parts := @List.takeWhile_append_dropWhile _ holds text
      rwa [left, List.append_nil] at parts
    have member := List.getLast_mem present
    have taken : holds (text.getLast present) = true := inside _ (run.symm ▸ member)
    simpa [taken] using
      ends _ d (List.getLast?_eq_some_getLast present) (by simpa [left] using head)

theorem Aligned.takeWhile (aligned : seam.Aligned first second) (holds : Char → Bool)
    (blank : holds ' ' = false)
    (ends : ∀ c d, seam.before.getLast? = some c → seam.behind.head? = some d →
      ¬(holds c = true ∧ holds d = true)) :
    (second.takeWhile holds).1 = (first.takeWhile holds).1 ∧
      seam.Near (first.takeWhile holds).2 (second.takeWhile holds).2 := by
  cases aligned with
  | beyond further => exact ⟨rfl, (beyond_add further _ _).near⟩
  | @ahead read rest c split =>
    have last : (c :: rest).getLast? = seam.before.getLast? := by
      rw [split, List.getLast?_append, List.getLast?_cons]
      rfl
    have ends' : ∀ x d, (c :: rest).getLast? = some x →
        (spaces seam.count ++ seam.behind).head? = some d → ¬(holds x = true ∧ holds d = true) := by
      intro x d shown head
      cases count : seam.count with
      | zero => exact ends x d (last ▸ shown) (by simpa [count] using head)
      | succ more =>
        have space : ' ' = d := by simpa [count, spaces, List.replicate_succ] using head
        simp [← space, blank]
    rw [← List.cons_append, ← List.cons_append,
      takeWhile_of_border read.length (List.cons_ne_nil c rest) ends',
      takeWhile_of_border read.length (List.cons_ne_nil c rest) (last ▸ ends)]
    refine ⟨rfl, ?_⟩
    have split' : seam.before =
        (read ++ (c :: rest).takeWhile holds) ++ (c :: rest).dropWhile holds := by
      rw [split, List.append_assoc, List.takeWhile_append_dropWhile]
    have near := Near.ahead split'
    rw [List.length_append] at near
    exact near

end Seam

end Reckoner
