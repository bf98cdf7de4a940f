import Reckoner.Proofs.Reading.Span

/-!
Any use of a cursor. In whatever order a cursor is advanced, made to eat and made to take, what it
has not read is the text from its position on, also where the position has gone past the end; and
this fixes everything that it answers.
-/
namespace Reckoner.Cursor

inductive Use where
  | advance
  | eat (wanted : List Char)
  | takeWhile (holds : Char → Bool)

def after (cursor : Cursor) : Use → Cursor
  | .advance => cursor.advance
  | .eat wanted => (cursor.eat wanted).2
  | .takeWhile holds => (cursor.takeWhile holds).2

def follow (cursor : Cursor) (uses : List Use) : Cursor := uses.foldl after cursor

def InText (text : List Char) (cursor : Cursor) : Prop :=
  cursor.unread = text.drop cursor.position

section

variable {text : List Char} {cursor : Cursor}

theorem inText_ofText (text : List Char) : InText text (ofText text) := rfl

theorem InText.of_passes {read : List Char} {last : Cursor} (inText : InText text cursor)
    (passed : cursor.Passes read last) : InText text last := by
  have dropped : last.unread = cursor.unread.drop read.length := by
    rw [passed.unread_eq, List.drop_left]
  rw [InText, dropped, inText, List.drop_drop, passed.position_eq]

theorem InText.advance (inText : InText text cursor) : InText text cursor.advance := by
  change cursor.unread.drop 1 = text.drop (cursor.position + 1)
  rw [inText, List.drop_drop]

theorem InText.skipSpaces (inText : InText text cursor) : InText text cursor.skipSpaces := by
  obtain ⟨count, passed⟩ := passes_skipSpaces cursor
  exact inText.of_passes passed

theorem eat_cases (cursor : Cursor) (wanted : List Char) :
    (cursor.skipSpaces.lookahead = wanted ∧
        cursor.eat wanted = (true, cursor.skipSpaces.advance)) ∨
      (cursor.skipSpaces.lookahead ≠ wanted ∧ cursor.eat wanted = (false, cursor.skipSpaces)) := by
  by_cases met : cursor.skipSpaces.lookahead = wanted
  · exact Or.inl ⟨met, eat_of_lookahead met⟩
  · exact Or.inr ⟨met, eat_of_ne_lookahead met⟩

theorem InText.after (inText : InText text cursor) (use : Use) :
    InText text (cursor.after use) := by
  cases use with
  | advance => exact inText.advance
  | eat wanted =>
    rcases cursor.eat_cases wanted with ⟨_, eaten⟩ | ⟨_, kept⟩
    · rw [Cursor.after, eaten]
      exact inText.skipSpaces.advance
    · rw [Cursor.after, kept]
      exact inText.skipSpaces
  | takeWhile holds => exact inText.of_passes (passes_takeWhile cursor holds)

theorem InText.follow (inText : InText text cursor) (uses : List Use) :
    InText text (cursor.follow uses) := by
  induction uses generalizing cursor with
  | nil => exact inText
  | cons use uses ih => exact ih (inText.after use)

/-! What a cursor in a text sees. -/

theorem InText.getElem? (inText : InText text cursor) (ahead : Nat) :
    cursor.unread[ahead]? = text[cursor.position + ahead]? := by
  rw [inText, List.getElem?_drop]

theorem InText.lookahead_eq (inText : InText text cursor) :
    cursor.lookahead = text[cursor.position]?.toList := by
  rw [lookahead, List.take_one, List.head?_eq_getElem?, inText.getElem?, Nat.add_zero]

theorem InText.atEnd_iff (inText : InText text cursor) :
    cursor.atEnd = true ↔ text.length ≤ cursor.position := by
  rw [atEnd, List.isEmpty_iff, inText, List.drop_eq_nil_iff]

theorem lookahead_eq_nil_iff : cursor.lookahead = [] ↔ cursor.atEnd = true := by
  cases rest : cursor.unread <;> simp [lookahead, atEnd, rest]

theorem InText.getElem?_of_passes {read : List Char} {last : Cursor} (inText : InText text cursor)
    (passed : cursor.Passes read last) {place : Nat} (least : cursor.position ≤ place)
    (most : place < last.position) : text[place]? = read[place - cursor.position]? := by
  have within : place - cursor.position < read.length := by
    rw [passed.position_eq] at most
    omega
  have seen := inText.getElem? (place - cursor.position)
  rw [passed.unread_eq, List.getElem?_append_left within, Nat.add_sub_cancel' least] at seen
  exact seen.symm

end

/-- The first place of a text, from a given one on, where no space stands. -/
structure FirstVisible (text : List Char) (start place : Nat) : Prop where
  le : start ≤ place
  visible : text[place]? ≠ some ' '
  blank : ∀ between, start ≤ between → between < place → text[between]? = some ' '

/-- How a cursor eats a wanted text: it goes to the first place without a space, and one further if
what stands there is the wanted text. -/
structure Eats (text : List Char) (cursor : Cursor) (wanted : List Char) (place : Nat) : Prop where
  first : FirstVisible text cursor.position place
  met_iff : (cursor.eat wanted).1 = true ↔ text[place]?.toList = wanted
  position_eq : (cursor.eat wanted).2.position =
    if (cursor.eat wanted).1 = true then place + 1 else place
  space : wanted = [' '] → (cursor.eat wanted).1 = false
  longer : 1 < wanted.length → (cursor.eat wanted).1 = false
  empty : wanted = [] → ((cursor.eat wanted).1 = true ↔ text.length ≤ place)

structure Takes (text : List Char) (cursor : Cursor) (holds : Char → Bool) : Prop where
  taken_eq : (cursor.takeWhile holds).1 =
    (text.drop cursor.position).take ((cursor.takeWhile holds).2.position - cursor.position)
  position_eq : (cursor.takeWhile holds).2.position =
    cursor.position + (cursor.takeWhile holds).1.length
  inside : ∀ c ∈ (cursor.takeWhile holds).1, holds c = true
  stops : ∀ c, text[(cursor.takeWhile holds).2.position]? = some c → holds c = false

/-- What holds of a cursor in a text and of whatever it is used for next. Only an advance and eating
the empty text lead beyond the end, and both do so only from the end on. -/
structure Tracks (text : List Char) (cursor : Cursor) : Prop where
  lookahead_eq : cursor.lookahead = text[cursor.position]?.toList
  atEnd_iff : cursor.atEnd = true ↔ cursor.lookahead = []
  forward : ∀ use, cursor.position ≤ (cursor.after use).position
  advance : cursor.advance.position = cursor.position + 1
  eats : ∀ wanted, ∃ place, Eats text cursor wanted place
  takes : ∀ holds, Takes text cursor holds
  beyond : ∀ use, max text.length cursor.position < (cursor.after use).position →
    (use = .advance ∧ text.length ≤ cursor.position) ∨
      (use = .eat [] ∧ text.length ≤ cursor.skipSpaces.position)

namespace InText

variable {text : List Char} {cursor : Cursor}

theorem firstVisible (inText : InText text cursor) :
    FirstVisible text cursor.position cursor.skipSpaces.position := by
  obtain ⟨count, passed⟩ := passes_skipSpaces cursor
  refine ⟨?_, ?_, fun between least most => ?_⟩
  · rw [passed.position_eq]
    exact Nat.le_add_right _ _
  · have stops := skipSpaces_stops cursor
    rwa [List.head?_eq_getElem?, inText.skipSpaces.getElem?, Nat.add_zero] at stops
  · have short : between - cursor.position < count := by
      rw [passed.position_eq, length_spaces] at most
      omega
    rw [inText.getElem?_of_passes passed least most, spaces, List.getElem?_replicate, if_pos short]

theorem eats (inText : InText text cursor) (wanted : List Char) :
    Eats text cursor wanted cursor.skipSpaces.position := by
  have seen := inText.skipSpaces.lookahead_eq
  have met_iff : (cursor.eat wanted).1 = true ↔
      text[cursor.skipSpaces.position]?.toList = wanted := by
    rw [← seen]
    rcases cursor.eat_cases wanted with ⟨met, eaten⟩ | ⟨missed, kept⟩
    · simp [eaten, met]
    · simp [kept, missed]
  have missed : text[cursor.skipSpaces.position]?.toList ≠ wanted →
      (cursor.eat wanted).1 = false := fun other =>
    Bool.eq_false_iff.mpr fun met => other (met_iff.mp met)
  refine ⟨inText.firstVisible, met_iff, ?_, ?_, ?_, ?_⟩
  · rcases cursor.eat_cases wanted with ⟨_, eaten⟩ | ⟨_, kept⟩
    · rw [eaten, if_pos rfl]
      rfl
    · rw [kept, if_neg Bool.false_ne_true]
  · rintro rfl
    refine missed fun same => inText.firstVisible.visible ?_
    simpa [Option.toList_eq_singleton_iff] using same
  · intro longer
    refine missed fun same => ?_
    rw [← same] at longer
    have short := Option.length_toList_le (o := text[cursor.skipSpaces.position]?)
    omega
  · rintro rfl
    rw [met_iff, Option.toList_eq_nil_iff, List.getElem?_eq_none_iff]

theorem takes (inText : InText text cursor) (holds : Char → Bool) : Takes text cursor holds := by
  have passed := passes_takeWhile cursor holds
  have position := takeWhile_position cursor holds
  refine ⟨?_, position, fun c member => holds_of_mem_takeWhile member, fun c next => ?_⟩
  · rw [← inText, position, Nat.add_sub_cancel_left, passed.unread_eq, List.take_left]
  · have further := (inText.of_passes passed).getElem? 0
    rw [Nat.add_zero, next, ← List.head?_eq_getElem?] at further
    exact takeWhile_stops further

theorem forward (inText : InText text cursor) (use : Use) :
    cursor.position ≤ (cursor.after use).position := by
  cases use with
  | advance => exact Nat.le_add_right _ _
  | eat wanted =>
    have eats := inText.eats wanted
    have first := eats.first.le
    have moved := eats.position_eq
    change cursor.position ≤ (cursor.eat wanted).2.position
    split at moved <;> omega
  | takeWhile holds =>
    rw [Cursor.after, takeWhile_position]
    exact Nat.le_add_right _ _

theorem position_le_of_passes {read : List Char} {last : Cursor} (inText : InText text cursor)
    (passed : cursor.Passes read last) : last.position ≤ max text.length cursor.position := by
  have size := congrArg List.length (inText.symm.trans passed.unread_eq)
  rw [List.length_drop, List.length_append] at size
  rw [passed.position_eq]
  omega

theorem beyond (inText : InText text cursor) {use : Use}
    (further : max text.length cursor.position < (cursor.after use).position) :
    (use = .advance ∧ text.length ≤ cursor.position) ∨
      (use = .eat [] ∧ text.length ≤ cursor.skipSpaces.position) := by
  obtain ⟨count, blank⟩ := passes_skipSpaces cursor
  have skipped := inText.position_le_of_passes blank
  cases use with
  | advance =>
    change max text.length cursor.position < cursor.position + 1 at further
    exact Or.inl ⟨rfl, by omega⟩
  | eat wanted =>
    rcases cursor.eat_cases wanted with ⟨met, eaten⟩ | ⟨_, kept⟩
    · rw [Cursor.after, eaten] at further
      change max text.length cursor.position < cursor.skipSpaces.position + 1 at further
      have ended : text.length ≤ cursor.skipSpaces.position := by omega
      have none := lookahead_eq_nil_iff.mpr (inText.skipSpaces.atEnd_iff.mpr ended)
      exact Or.inr ⟨congrArg Use.eat (met.symm.trans none), ended⟩
    · rw [Cursor.after, kept] at further
      exact absurd further (Nat.not_lt.mpr skipped)
  | takeWhile holds =>
    have taken := inText.position_le_of_passes (passes_takeWhile cursor holds)
    exact absurd further (Nat.not_lt.mpr taken)

theorem tracks (inText : InText text cursor) : Tracks text cursor where
  lookahead_eq := inText.lookahead_eq
  atEnd_iff := lookahead_eq_nil_iff.symm
  forward := inText.forward
  advance := rfl
  eats := fun wanted => ⟨_, inText.eats wanted⟩
  takes := inText.takes
  beyond := fun _ => inText.beyond

end InText

/-- However a cursor over a text has been used, it tracks the text. -/
theorem tracks_follow (text : List Char) (uses : List Use) :
    Tracks text ((ofText text).follow uses) :=
  ((inText_ofText text).follow uses).tracks

/-- Eating at the end goes past it, and once more. -/
example : ((ofText ['a', ' ']).follow [.eat ['a'], .eat [' '], .eat [], .eat []]) = ⟨4, []⟩ := by
  decide

end Reckoner.Cursor
