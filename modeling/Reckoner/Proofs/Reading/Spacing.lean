import Reckoner.Proofs.Reading.Production
import Reckoner.Proofs.Reading.Seam

/-!
Spaces between two tokens make no difference. A run of the text with more of them goes along with
the run of the text without, and comes to the same value, or to the same fault further on by the
spaces.
-/
namespace Reckoner

open Scan Evaluator

namespace Seam

variable {α β : Type} {seam : Seam} {first second : Cursor}

/-- A fault has the same cause and, unless a factor was refused, it lies at the same character. -/
structure Moved (seam : Seam) (fault fault' : Fault) : Prop where
  cause : fault'.cause = fault.cause
  place : fault.cause.kind ≠ .nesting →
    fault'.char = fault.char ∧ fault'.position = fault.position.map seam.shift

theorem Aligned.moved (aligned : seam.Aligned first second) (cause : Cause) :
    seam.Moved (Fault.atCursor cause first) (Fault.atCursor cause second) :=
  ⟨rfl, fun _ => ⟨aligned.head_eq, congrArg some aligned.position_eq⟩⟩

inductive Agrees (seam : Seam) : Outcome α → Outcome α → Prop where
  | value {value : α} {last last' : Cursor} (notes : List Note) (near : seam.Near last last') :
      Agrees seam ⟨notes, .ok (value, last)⟩ ⟨notes.map seam.moveNote, .ok (value, last')⟩
  | fault {fault fault' : Fault} (notes : List Note) (moved : seam.Moved fault fault') :
      Agrees seam ⟨notes, .error fault⟩ ⟨notes.map seam.moveNote, .error fault'⟩

def Keeps (seam : Seam) (step : Scan α) : Prop :=
  ∀ first second, seam.Near first second → seam.Agrees (step first) (step second)

theorem Agrees.pure (near : seam.Near first second) (value : α) :
    seam.Agrees ((pure value : Scan α) first) ((pure value : Scan α) second) := .value [] near

theorem Agrees.refuse_atCursor (aligned : seam.Aligned first second) (cause : Cause) :
    seam.Agrees ((refuse (Fault.atCursor cause) : Scan α) first)
      ((refuse (Fault.atCursor cause) : Scan α) second) := .fault [] (aligned.moved cause)

theorem Agrees.unexpected (aligned : seam.Aligned first second) :
    seam.Agrees ((unexpected : Scan α) first) ((unexpected : Scan α) second) := by
  have moved := aligned.moved (.unexpected first.unread.head?)
  rw [Scan.unexpected, refuse, refuse, aligned.head_eq]
  exact .fault [] moved

theorem Agrees.prepend {outcome outcome' : Outcome α} (agrees : seam.Agrees outcome outcome')
    (notes : List Note) :
    seam.Agrees ⟨notes ++ outcome.notes, outcome.result⟩
      ⟨notes.map seam.moveNote ++ outcome'.notes, outcome'.result⟩ := by
  cases agrees with
  | value later near =>
    rw [← List.map_append]
    exact .value _ near
  | fault later moved =>
    rw [← List.map_append]
    exact .fault _ moved

theorem Agrees.bind {step : Scan α} {after after' : α → Scan β}
    (agrees : seam.Agrees (step first) (step second))
    (later : ∀ value last last', Yields step first value last → Yields step second value last' →
      seam.Near last last' → seam.Agrees (after value last) (after' value last')) :
    seam.Agrees ((step >>= after) first) ((step >>= after') second) := by
  change seam.Agrees ((step first).andThen after) ((step second).andThen after')
  generalize outcome : step first = one at agrees
  generalize outcome' : step second = two at agrees
  cases agrees with
  | value notes near =>
    exact (later _ _ _ (by rw [Yields, outcome]) (by rw [Yields, outcome']) near).prepend notes
  | fault notes moved => exact .fault notes moved

theorem Agrees.eat {after after' : Bool → Scan β} (near : seam.Near first second) (c : Char)
    (met : ∀ last last', seam.Near last last' → seam.Agrees (after true last) (after' true last'))
    (missed : ∀ last last', seam.Aligned last last' →
      seam.Agrees (after false last) (after' false last')) :
    seam.Agrees ((eat c >>= after) first) ((eat c >>= after') second) := by
  rw [eat_bind_apply, eat_bind_apply, near.upcoming_eq]
  split
  next => exact met _ _ near.skipSpaces.advance
  next => exact missed _ _ near.skipSpaces

/-! Loops. -/

section

variable {operator : Operator} {others : List Operator} {operand : Scan Float}

theorem keeps_further (forward : Advances operand) (keeps : seam.Keeps operand) (value : Float) :
    seam.Keeps (further (operator :: others) operand value) := by
  intro first second near
  induction value, first using loop_induction (operator :: others) forward generalizing second with
  | round value first ih =>
    rw [further_apply forward, further_apply forward, operatorAhead_congr near.upcoming_eq]
    cases ahead : operatorAhead (operator :: others) first with
    | none => exact .value [] near.skipSpaces.near
    | some found =>
      exact (keeps _ _ near.skipSpaces.advance).bind fun right last last' run _ near' =>
        ih _ _ _ ahead run _ near'

theorem keeps_chain (forward : Advances operand) (keeps : seam.Keeps operand) :
    seam.Keeps (chain (operator :: others) operand) := by
  intro first second near
  rw [chain_eq]
  exact (keeps _ _ near).bind fun value last last' _ _ near' =>
    keeps_further forward keeps value last last' near'

end

/-! Productions. -/

section

variable {inner : Scan Float}

theorem keeps_expression (forward : Advances inner) (keeps : seam.Keeps inner) :
    seam.Keeps (expression inner) :=
  keeps_chain (advances_term forward) (keeps_chain forward keeps)

theorem keeps_enclosed (forward : Advances inner) (keeps : seam.Keeps inner)
    (argumentOf : Option String) : seam.Keeps (enclosed inner argumentOf) := by
  intro first second near
  refine (keeps_expression forward keeps _ _ near).bind fun value last last' _ _ near' => ?_
  exact .eat near' ')' (fun _ _ near'' => .pure near'' value)
    fun _ _ aligned => .refuse_atCursor aligned _

theorem agrees_number (aligned : seam.Aligned first second) :
    seam.Agrees (number first) (number second) := by
  obtain ⟨token, near⟩ := aligned.takeWhile Cursor.isNumberChar (by decide)
    fun c d last head => (seam.apart c d last head).1
  rw [number_apply, number_apply, token]
  cases Numeral.decimal? (first.takeWhile Cursor.isNumberChar).1 with
  | some decimal => exact .value [] near
  | none => exact .fault [] (aligned.moved _)

theorem agrees_conclude (near : seam.Near first second) (name : String) (position : Nat)
    (argument : Float) :
    seam.Agrees (conclude name position argument first)
      (conclude name (seam.shift position) argument second) := by
  unfold conclude
  split
  · exact .value [⟨name, position⟩] near
  · exact .value [] near

theorem agrees_application (forward : Advances inner) (keeps : seam.Keeps inner)
    (aligned : seam.Aligned first second) :
    seam.Agrees (application inner first) (application inner second) := by
  obtain ⟨name, near⟩ := aligned.takeWhile Cursor.isLetter (by decide)
    fun c d last head => (seam.apart c d last head).2
  rcases taken : first.takeWhile Cursor.isLetter with ⟨letters, middle⟩
  rcases taken' : second.takeWhile Cursor.isLetter with ⟨letters', middle'⟩
  simp only [taken, taken'] at name near
  subst name
  by_cases opening : middle.upcoming = some '('
  · rw [application_apply_of_parenthesis taken opening,
      application_apply_of_parenthesis taken' (near.upcoming_eq.trans opening),
      aligned.position_eq]
    exact (keeps_enclosed forward keeps _ _ _ near.skipSpaces.advance).bind
      fun argument last last' _ _ near' => agrees_conclude near' _ _ argument
  · rw [application_apply_of_ne_parenthesis taken opening,
      application_apply_of_ne_parenthesis taken' (near.upcoming_eq ▸ opening),
      aligned.position_eq]
    exact (keeps _ _ near.skipSpaces.near).bind
      fun argument last last' _ _ near' => agrees_conclude near' _ _ argument

theorem keeps_primary (forward : Advances inner) (keeps : seam.Keeps inner) :
    seam.Keeps (primary inner) := by
  intro first second near
  refine .eat near '(' (fun _ _ near' => keeps_enclosed forward keeps none _ _ near') ?_
  intro last last' aligned
  simp only [Bool.false_eq_true, ↓reduceIte]
  rw [cursor_bind_apply, cursor_bind_apply]
  have shown := aligned.head_eq
  cases text : last.unread with
  | nil =>
    rw [text, List.head?_nil, List.head?_eq_none_iff] at shown
    rw [shown]
    exact .unexpected aligned
  | cons c rest =>
    rw [text] at shown
    obtain ⟨rest', text'⟩ := List.head?_eq_some_iff.mp shown
    rw [text']
    simp only
    by_cases digit : Cursor.isNumberChar c = true
    · simp only [digit, ↓reduceIte]
      exact agrees_number aligned
    · by_cases letter : Cursor.isLetter c = true
      · simp only [digit, letter, ↓reduceIte]
        exact agrees_application forward keeps aligned
      · simp only [digit, letter]
        exact .unexpected aligned

end

theorem keeps_factor (limit : Int) (stack room : Nat) :
    seam.Keeps (factor (nestingFault limit stack) room) := by
  induction room with
  | zero =>
    intro first second _
    have moved : seam.Moved (nestingFault limit stack first) (nestingFault limit stack second) := by
      unfold nestingFault
      split
      · exact ⟨rfl, fun other => absurd rfl other⟩
      · split
        · exact ⟨rfl, fun other => absurd rfl other⟩
        · exact ⟨rfl, fun _ => ⟨rfl, rfl⟩⟩
    exact .fault [] moved
  | succ room ih =>
    have forward := advances_factor (nestingFault limit stack) room
    intro first second near
    refine .eat near '+' (fun _ _ near => ih _ _ near) fun _ _ aligned => ?_
    refine .eat aligned.near '-' ?_ fun _ _ aligned => ?_
    · exact fun _ _ near => (ih _ _ near).bind fun x _ _ _ _ near' => .pure near' _
    · refine (keeps_primary forward ih _ _ aligned.near).bind fun base _ _ _ _ near' => ?_
      refine .eat near' '^' ?_ fun _ _ aligned' => .pure aligned'.near base
      exact fun _ _ near => (ih _ _ near).bind fun x _ _ _ _ near' => .pure near' _

/-! Whole texts. -/

theorem keeps_whole (limit : Int) (stack room : Nat) :
    seam.Keeps (whole (nestingFault limit stack) room) := by
  have forward := advances_factor (nestingFault limit stack) room
  intro first second near
  refine (keeps_expression forward (keeps_factor limit stack room) _ _ near).bind ?_
  intro value last last' run run' near'
  -- An expression ends behind spaces in both texts, so neither run stops in front of the new ones.
  have aligned := near'.skipSpaces
  rw [skipSpaces_of_yields_chain (advances_term forward) run,
    skipSpaces_of_yields_chain (advances_term forward) run'] at aligned
  have shown := aligned.head_eq
  rw [ending_apply, ending_apply]
  by_cases ended : last.unread = []
  · have ended' : last'.unread = [] := by simpa [ended] using shown
    rw [if_pos ended, if_pos ended']
    exact .value [] near'
  · have more : last'.unread ≠ [] := by
      intro ended'
      exact ended (by simpa [ended'] using shown.symm)
    rw [if_neg ended, if_neg more, shown]
    exact .fault [] (aligned.moved _)

end Seam

namespace Evaluator

/-- Spaces between two tokens, or at an end of the text, make no difference: the value stays, and so
does the cause of a fault. It lies at the same character, further on if that is behind the spaces,
unless a factor is refused for want of room. -/
theorem evaluate_of_spaces (bounds : Bounds) (limit : Option Int) (before behind : String)
    (count : Nat) (uncapped : bounds.maxLength ≤ 0) (apart : Apart before.toList behind.toList) :
    let joined := evaluate bounds (.text (before ++ behind)) limit
    let spaced := evaluate bounds (.text (before ++ String.ofList (spaces count) ++ behind)) limit
    let shift (position : Nat) : Nat :=
      if position < before.length then position else position + count
    spaced.notes = joined.notes.map (fun note => { note with position := shift note.position }) ∧
      ((∃ value, joined.result = .ok value ∧ spaced.result = .ok value) ∨
        ∃ fault fault', joined.result = .error fault ∧ spaced.result = .error fault' ∧
          fault'.cause = fault.cause ∧ (fault.cause.kind ≠ .nesting →
            fault'.char = fault.char ∧ fault'.position = fault.position.map shift)) := by
  intro joined spaced shift
  have agrees := Seam.keeps_whole (limit.getD bounds.maxDepth) bounds.stack
    (min (limit.getD bounds.maxDepth).toNat bounds.stack) _ _
    (Seam.near_ofText ⟨before.toList, behind.toList, count, apart⟩)
  have same : shift = Seam.shift ⟨before.toList, behind.toList, count, apart⟩ := by
    funext position
    rw [Seam.shift, String.length_toList]
  simp only [joined, spaced, same, evaluate_of_uncapped uncapped, run, String.toList_append,
    String.toList_ofList, List.append_assoc]
  generalize whole _ _ _ = one at agrees ⊢
  generalize whole _ _ _ = two at agrees ⊢
  cases agrees with
  | value notes near => exact ⟨rfl, Or.inl ⟨_, rfl, rfl⟩⟩
  | fault notes moved => exact ⟨rfl, Or.inr ⟨_, _, rfl, rfl, moved.cause, moved.place⟩⟩

theorem evaluate_of_spaces_product :
    Apart "2+".toList "*3".toList ∧
      (evaluate .standard (.text ("2+" ++ String.ofList (spaces 2) ++ "*3")) none).result =
        .error ⟨.unexpected (some '*'), some 4, some '*'⟩ := by
  have apart : Apart "2+".toList "*3".toList := by
    intro c d last head
    obtain rfl : '+' = c := Option.some.inj last
    obtain rfl : '*' = d := Option.some.inj head
    decide
  refine ⟨apart, ?_⟩
  have joined : (evaluate .standard (.text ("2+" ++ "*3")) none).result =
      .error ⟨.unexpected (some '*'), some 2, some '*'⟩ := rfl
  obtain ⟨_, ⟨value, ended, _⟩ | ⟨fault, ⟨cause, position, char⟩, failed, failed', same, place⟩⟩ :=
    evaluate_of_spaces .standard none "2+" "*3" 2 (by decide) apart
  · rw [joined] at ended
    cases ended
  · obtain rfl := Except.error.inj (joined.symm.trans failed)
    obtain ⟨rfl, rfl⟩ := place (by simp [Cause.kind])
    subst same
    exact failed'

end Evaluator

end Reckoner
