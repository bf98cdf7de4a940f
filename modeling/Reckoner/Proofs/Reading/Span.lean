import Reckoner.Cursor

/-!
Two cursors of one reading: the text that lies between them, and the first character behind the
spaces at a cursor, which is all that eating a character looks at.
-/
namespace Reckoner

def spaces (count : Nat) : List Char := List.replicate count ' '

@[simp] theorem spaces_zero : spaces 0 = [] := rfl

@[simp] theorem length_spaces (count : Nat) : (spaces count).length = count :=
  List.length_replicate

theorem spaces_append (first second : Nat) :
    spaces first ++ spaces second = spaces (first + second) :=
  List.replicate_append_replicate

theorem eq_space_of_mem_spaces {count : Nat} {c : Char} (member : c ∈ spaces count) : c = ' ' :=
  List.eq_of_mem_replicate member

theorem eq_spaces {text : List Char} (blank : ∀ c ∈ text, c = ' ') : text = spaces text.length :=
  List.eq_replicate_of_mem blank

theorem takeWhile_append_of_stops {holds : Char → Bool} {run rest : List Char}
    (inside : ∀ c ∈ run, holds c = true) (stops : ∀ c, rest.head? = some c → holds c = false) :
    (run ++ rest).takeWhile holds = run ∧ (run ++ rest).dropWhile holds = rest := by
  rw [List.takeWhile_append_of_pos inside, List.dropWhile_append_of_pos inside]
  cases rest with
  | nil => simp
  | cons c rest => simp [stops c rfl]

namespace Cursor

theorem not_isLetter_of_isNumberChar {c : Char} (digit : isNumberChar c = true) :
    isLetter c = false := by
  have upper : c.toNat ≤ 57 := by
    simp only [isNumberChar, Bool.or_eq_true, decide_eq_true_eq] at digit
    rcases digit with rfl | digit
    · decide
    · simp only [Char.isDigit, Bool.and_eq_true, decide_eq_true_eq] at digit
      exact UInt32.le_iff_toNat_le.mp digit.2
  have lower : ¬ 'a' ≤ c := by
    intro letter
    have bound : 97 ≤ c.toNat := UInt32.le_iff_toNat_le.mp (Char.le_def.mp letter)
    omega
  simp [isLetter, lower]

/-- The text that lies between two cursors of one reading. -/
structure Passes (start : Cursor) (text : List Char) (last : Cursor) : Prop where
  unread_eq : start.unread = text ++ last.unread
  position_eq : last.position = start.position + text.length

namespace Passes

variable {start middle last other : Cursor} {text before after : List Char}

theorem nil (start : Cursor) : Passes start [] start := ⟨rfl, rfl⟩

theorem append (first : Passes start before middle) (second : Passes middle after last) :
    Passes start (before ++ after) last where
  unread_eq := by rw [first.unread_eq, second.unread_eq, List.append_assoc]
  position_eq := by rw [second.position_eq, first.position_eq, List.length_append, Nat.add_assoc]

theorem split (whole : Passes start (before ++ after) last) :
    ∃ middle, Passes start before middle ∧ Passes middle after last := by
  refine ⟨⟨start.position + before.length, after ++ last.unread⟩, ⟨?_, rfl⟩, ⟨rfl, ?_⟩⟩
  · rw [whole.unread_eq, List.append_assoc]
  · rw [whole.position_eq, List.length_append, Nat.add_assoc]

theorem last_eq (first : Passes start text last) (second : Passes start text other) :
    last = other := by
  have texts : text ++ last.unread = text ++ other.unread :=
    first.unread_eq.symm.trans second.unread_eq
  have positions : last.position = other.position :=
    first.position_eq.trans second.position_eq.symm
  cases last
  cases other
  simp_all

end Passes

theorem passes_of_append (place : Nat) (text rest : List Char) :
    Passes ⟨place, text ++ rest⟩ text ⟨place + text.length, rest⟩ := ⟨rfl, rfl⟩

theorem split_of_passes {text read : List Char} {place : Cursor}
    (passed : (ofText text).Passes read place) :
    text = read ++ place.unread ∧ place.position = read.length :=
  ⟨passed.unread_eq, by simpa [ofText] using passed.position_eq⟩

theorem passes_takeWhile (cursor : Cursor) (holds : Char → Bool) :
    Passes cursor (cursor.takeWhile holds).1 (cursor.takeWhile holds).2 where
  unread_eq := (takeWhile_append cursor holds).symm
  position_eq := takeWhile_position cursor holds

theorem takeWhile_of_passes {start last : Cursor} {run : List Char} (holds : Char → Bool)
    (whole : Passes start run last) (inside : ∀ c ∈ run, holds c = true)
    (stops : ∀ c, last.unread.head? = some c → holds c = false) :
    start.takeWhile holds = (run, last) := by
  have parts := takeWhile_append_of_stops inside stops
  have same := whole.position_eq
  simp only [takeWhile, whole.unread_eq, parts.1, parts.2, ← same]

theorem passes_advance {cursor : Cursor} {c : Char} (ahead : cursor.unread.head? = some c) :
    Passes cursor [c] cursor.advance where
  unread_eq := by
    cases text : cursor.unread with
    | nil => simp [text] at ahead
    | cons first rest =>
      have same : first = c := by simpa [text] using ahead
      simp [advance, text, same]
  position_eq := rfl

theorem passes_skipSpaces (cursor : Cursor) :
    ∃ count, Passes cursor (spaces count) cursor.skipSpaces := by
  have passed := passes_takeWhile cursor (· = ' ')
  have blank : ∀ c ∈ (cursor.takeWhile (· = ' ')).1, c = ' ' := by
    intro c member
    simpa using holds_of_mem_takeWhile member
  rw [eq_spaces blank] at passed
  exact ⟨_, passed⟩

theorem skipSpaces_of_head {cursor : Cursor} (ahead : cursor.unread.head? ≠ some ' ') :
    cursor.skipSpaces = cursor := by
  have taken := takeWhile_of_passes (· = ' ') (Passes.nil cursor) (by simp) (by
    intro c head
    have different : c ≠ ' ' := fun same => ahead (same ▸ head)
    simpa using different)
  exact congrArg Prod.snd taken

@[simp] theorem skipSpaces_skipSpaces (cursor : Cursor) :
    cursor.skipSpaces.skipSpaces = cursor.skipSpaces :=
  skipSpaces_of_head (skipSpaces_stops cursor)

theorem skipSpaces_of_passes {start last : Cursor} {count : Nat}
    (passed : Passes start (spaces count) last) : start.skipSpaces = last.skipSpaces := by
  obtain ⟨more, further⟩ := passes_skipSpaces last
  have whole := passed.append further
  have taken := takeWhile_of_passes (· = ' ') whole (by
    intro c member
    rw [spaces_append] at member
    simpa using eq_space_of_mem_spaces member) (by
    intro c head
    have different : c ≠ ' ' := fun same => skipSpaces_stops last (same ▸ head)
    simpa using different)
  exact (congrArg Prod.snd taken :)

def upcoming (cursor : Cursor) : Option Char := cursor.skipSpaces.unread.head?

@[simp] theorem upcoming_skipSpaces (cursor : Cursor) :
    cursor.skipSpaces.upcoming = cursor.upcoming := by
  simp [upcoming]

theorem upcoming_congr {first second : Cursor} (same : first.skipSpaces = second.skipSpaces) :
    first.upcoming = second.upcoming := by
  rw [upcoming, same, ← upcoming]

theorem upcoming_ne_space (cursor : Cursor) : cursor.upcoming ≠ some ' ' := skipSpaces_stops cursor

theorem upcoming_of_head {cursor : Cursor} (ahead : cursor.unread.head? ≠ some ' ') :
    cursor.upcoming = cursor.unread.head? := by
  rw [upcoming, skipSpaces_of_head ahead]

theorem upcoming_eq_none {cursor : Cursor} :
    cursor.upcoming = none ↔ cursor.skipSpaces.unread = [] := by
  simp [upcoming]

theorem eat_eq (cursor : Cursor) (c : Char) :
    cursor.eat [c] = if cursor.upcoming = some c then (true, cursor.skipSpaces.advance)
      else (false, cursor.skipSpaces) := by
  by_cases ahead : cursor.upcoming = some c
  · rw [if_pos ahead, eat_of_lookahead (lookahead_eq_singleton.mpr ahead)]
  · rw [if_neg ahead, eat_of_ne_lookahead (fun met => ahead (lookahead_eq_singleton.mp met))]

theorem passes_advance_of_upcoming {cursor : Cursor} {c : Char}
    (ahead : cursor.upcoming = some c) :
    ∃ count, Passes cursor (spaces count ++ [c]) cursor.skipSpaces.advance := by
  obtain ⟨count, passed⟩ := passes_skipSpaces cursor
  exact ⟨count, passed.append (passes_advance ahead)⟩

theorem upcoming_of_passes {start last : Cursor} {count : Nat} {c : Char} {text : List Char}
    (passed : Passes start (spaces count ++ c :: text) last) (visible : c ≠ ' ') :
    start.upcoming = some c ∧ Passes start.skipSpaces (c :: text) last ∧
      Passes start.skipSpaces.advance text last := by
  obtain ⟨middle, blank, further⟩ := passed.split
  have ahead : middle.unread.head? = some c := by rw [further.unread_eq]; rfl
  have skipped : start.skipSpaces = middle := by
    rw [skipSpaces_of_passes blank, skipSpaces_of_head (by rw [ahead]; simpa using visible)]
  have step := passes_advance ahead
  obtain ⟨next, one, rest⟩ := Passes.split (show Passes middle ([c] ++ text) last from further)
  have same : middle.advance = next := step.last_eq one
  refine ⟨?_, skipped ▸ further, ?_⟩
  · rw [upcoming, skipped, ahead]
  · rw [skipped, same]
    exact rest

theorem exists_text_of_upcoming {cursor : Cursor} {c : Char} (ahead : cursor.upcoming = some c) :
    ∃ text, text ≠ [] ∧ Passes cursor text cursor.skipSpaces.advance ∧
      ∀ other last, Passes other text last →
        other.upcoming = some c ∧ other.skipSpaces.advance = last := by
  obtain ⟨count, passed⟩ := passes_advance_of_upcoming ahead
  have visible : c ≠ ' ' := fun blank => cursor.upcoming_ne_space (blank ▸ ahead)
  refine ⟨_, by simp, passed, fun other last passed' => ?_⟩
  obtain ⟨found, _, further⟩ := upcoming_of_passes passed' visible
  exact ⟨found, (Passes.nil _).last_eq further⟩

end Cursor

end Reckoner
