import Reckoner.Proofs.Grammar.Evaluation

/-!
Names outside the table of functions leave no trace in a value. A phrase with such a name, unless
another name stands right in front of it, is still a phrase with the same value when the name is
taken away, and no more of its factors are open at once.
-/
namespace Reckoner.Grammar

open Evaluator

/-! Words in a text. -/

section

variable {before behind rest piece : List Char}

theorem Name.eq_of_letters {first second : Name} (same : first.letters = second.letters) :
    first = second := by
  cases first
  cases second
  subst same
  rfl

theorem exists_of_not_mem {c : Char} (same : piece ++ rest = before ++ c :: behind)
    (absent : c ∉ piece) :
    ∃ between, before = piece ++ between ∧ rest = between ++ c :: behind := by
  rcases List.append_eq_append_iff.mp same with ⟨between, left, right⟩ | ⟨between, left, right⟩
  · exact ⟨between, left, right⟩
  · cases between with
    | nil => exact ⟨[], by simpa using left.symm, by simpa using right.symm⟩
    | cons first between =>
      have head : first = c := (List.cons.inj right).1.symm
      exact absurd (left ▸ List.mem_append_right before (head ▸ List.mem_cons_self)) absent

theorem isLetter_eq_false_of_mem {token : Token} (plain : ¬token.IsName) {c : Char}
    (member : c ∈ token.text) : Cursor.isLetter c = false := by
  cases token with
  | symbol mark =>
    have same : c = mark.char := List.mem_singleton.mp member
    subst same
    cases mark <;> decide
  | number literal =>
    exact Cursor.not_isLetter_of_isNumberChar (literal.isNumberChar_of_mem member)
  | name run => exact absurd ⟨run, rfl⟩ plain

theorem Spells.head_not_letter_of_apart {tokens : List Token} (spelled : Spells tokens rest)
    (apart : BeginsWithName tokens → rest.head? = some ' ') {c : Char}
    (head : rest.head? = some c) : Cursor.isLetter c = false := by
  cases tokens with
  | nil =>
    cases spelled with
    | blank count =>
      rw [eq_space_of_mem_spaces (List.mem_of_mem_head? head)]
      decide
  | cons token tokens =>
    obtain ⟨d, head', other⟩ := spelled.head_not_letter (List.cons_ne_nil _ _) apart
    rw [head] at head'
    exact Option.some.inj head' ▸ other

theorem Token.eq_name_or_exists {token : Token} {word : Name}
    (parts : token.text ++ rest = before ++ (word.letters ++ behind))
    (ends : token.IsName → ∀ c, rest.head? = some c → Cursor.isLetter c = false)
    (left : ∀ c, before.getLast? = some c → Cursor.isLetter c = false)
    (right : ∀ c, behind.head? = some c → Cursor.isLetter c = false) :
    (before = [] ∧ token = .name word ∧ rest = behind) ∨
      ∃ between, before = token.text ++ between ∧ rest = between ++ (word.letters ++ behind) ∧
        (token.IsName → between ≠ []) := by
  by_cases named : token.IsName
  · obtain ⟨run, rfl⟩ := named
    rcases List.append_eq_append_iff.mp parts with ⟨between, front, back⟩ | ⟨between, front, back⟩
    · refine Or.inr ⟨between, front, back, fun _ empty => ?_⟩
      have whole : before = run.letters := by rw [front, empty, List.append_nil]; rfl
      have last : before.getLast? = some (run.letters.getLast run.someLetter) := by
        rw [whole, List.getLast?_eq_some_getLast]
      have plain := left _ last
      rw [run.letter _ (List.getLast_mem _)] at plain
      cases plain
    · cases last : before.getLast? with
      | some c =>
        have member : c ∈ run.letters := by
          have whole : run.letters = before ++ between := front
          exact whole ▸ List.mem_append_left _ (List.mem_of_getLast? last)
        have plain := left c last
        rw [run.letter c member] at plain
        cases plain
      | none =>
        obtain rfl := List.getLast?_eq_none_iff.mp last
        -- Two maximal runs of letters at one place are the same.
        have taken := takeWhile_append_of_stops run.letter (ends ⟨run, rfl⟩)
        have taken' := takeWhile_append_of_stops word.letter right
        have same : run.letters ++ rest = word.letters ++ behind := parts
        rw [same] at taken
        have word : run = word := Name.eq_of_letters (taken.1.symm.trans taken'.1)
        exact Or.inl ⟨rfl, word ▸ rfl, taken.2.symm.trans taken'.2⟩
  · obtain ⟨c, letters, wording⟩ := List.exists_cons_of_ne_nil word.someLetter
    have absent : c ∉ token.text := by
      intro member
      have letter := word.letter c (by simp [wording])
      rw [isLetter_eq_false_of_mem named member] at letter
      cases letter
    rw [wording, List.cons_append] at parts ⊢
    obtain ⟨between, front, back⟩ := exists_of_not_mem parts absent
    exact Or.inr ⟨between, front, back, fun name => absurd name named⟩

theorem Spells.exists_name {tokens : List Token} {text : List Char} (spelled : Spells tokens text)
    {word : Name} (parts : text = before ++ (word.letters ++ behind))
    (left : ∀ c, before.getLast? = some c → Cursor.isLetter c = false)
    (right : ∀ c, behind.head? = some c → Cursor.isLetter c = false) :
    ∃ first second, tokens = first ++ .name word :: second ∧ Spells first before ∧
      Spells second behind := by
  obtain ⟨c, letters, wording⟩ := List.exists_cons_of_ne_nil word.someLetter
  have visible : ∀ count, c ∉ spaces count := by
    intro count member
    have letter := word.letter c (by simp [wording])
    rw [eq_space_of_mem_spaces member] at letter
    exact absurd letter (by decide)
  induction spelled generalizing before with
  | blank count => exact absurd (by simp [parts, wording]) (visible count)
  | @token count token tokens rest apart spelled ih =>
    rw [wording, List.cons_append] at parts
    obtain ⟨middle, rfl, inner⟩ := exists_of_not_mem parts (visible count)
    rw [← List.cons_append, ← wording] at inner
    have left' : ∀ c, middle.getLast? = some c → Cursor.isLetter c = false :=
      fun c last => left c (by rw [List.getLast?_append, last]; rfl)
    have ends : token.IsName → ∀ c, rest.head? = some c → Cursor.isLetter c = false :=
      fun name c head => spelled.head_not_letter_of_apart (apart name) head
    rcases Token.eq_name_or_exists inner ends left' right with
      ⟨rfl, rfl, rfl⟩ | ⟨between, rfl, back, more⟩
    · exact ⟨[], tokens, rfl, by simpa using Spells.blank count, spelled⟩
    · have left'' : ∀ c, between.getLast? = some c → Cursor.isLetter c = false :=
        fun c last => left' c (by rw [List.getLast?_append, last]; rfl)
      obtain ⟨first, second, rfl, front, rear⟩ := ih back left''
      refine ⟨token :: first, second, rfl, .token count (fun name begins => ?_) front, rear⟩
      obtain ⟨run, others, rfl⟩ := begins
      have space := apart name ⟨run, others ++ .name word :: second, rfl⟩
      obtain ⟨d, between, rfl⟩ := List.exists_cons_of_ne_nil (more name)
      rw [back] at space
      exact space

end

/-! Phrases without a name. -/

/-- Tokens write a phrase of a kind with a value, which fits into some room. -/
def Denotes (kind : Kind) (tokens : List Token) (value : Float) (room : Nat) : Prop :=
  ∃ phrase : Phrase kind, phrase.tokens = tokens ∧ phrase.value = value ∧ phrase.nesting ≤ room

/-- Tokens write a phrase of a kind that may begin otherwise unless it is fixed. -/
def Stands (fixed : Prop) (tokens : List Token) (value : Float) (room : Nat) : Kind → Prop
  | .expression => Denotes .expression tokens value room
  | .term => Denotes .term tokens value room
  | .factor opens =>
    ∃ opens', (fixed → opens' = opens) ∧ Denotes (.factor opens') tokens value room
  | .primary opens =>
    ∃ opens', (fixed → opens' = opens) ∧ Denotes (.primary opens') tokens value room

section

variable {before behind left right : List Token} {run : Name} {mark : Symbol} {room : Nat}

theorem split_at_symbol (same : left ++ .symbol mark :: right = before ++ .name run :: behind) :
    (∃ rest, left = before ++ .name run :: rest ∧ behind = rest ++ .symbol mark :: right) ∨
      ∃ rest, before = left ++ .symbol mark :: rest ∧ right = rest ++ .name run :: behind := by
  rcases List.append_eq_append_iff.mp same with ⟨rest, front, back⟩ | ⟨rest, front, back⟩
  · cases rest with
    | nil => cases back
    | cons token rest =>
      obtain ⟨rfl, inner⟩ := List.cons.inj back
      exact Or.inr ⟨rest, front, inner⟩
  · cases rest with
    | nil => cases back
    | cons token rest =>
      obtain ⟨rfl, inner⟩ := List.cons.inj back
      exact Or.inl ⟨rest, front, inner⟩

theorem split_behind_symbol (same : .symbol mark :: right = before ++ .name run :: behind) :
    ∃ rest, before = .symbol mark :: rest ∧ right = rest ++ .name run :: behind := by
  have whole : [] ++ .symbol mark :: right = before ++ .name run :: behind := same
  rcases split_at_symbol whole with ⟨rest, front, _⟩ | ⟨rest, front, back⟩
  · simp at front
  · exact ⟨rest, front, back⟩

theorem split_in_front_of_symbol
    (same : left ++ [.symbol mark] = before ++ .name run :: behind) :
    ∃ rest, left = before ++ .name run :: rest ∧ behind = rest ++ [.symbol mark] := by
  rcases split_at_symbol same with whole | ⟨rest, _, back⟩
  · exact whole
  · simp at back

def EndsPlain (tokens : List Token) : Prop :=
  ∀ token, tokens.getLast? = some token → ¬token.IsName

theorem EndsPlain.of_append (plain : EndsPlain (left ++ right)) : EndsPlain right := by
  intro token last
  exact plain token (by rw [List.getLast?_append, last]; rfl)

theorem EndsPlain.of_cons {token : Token} (plain : EndsPlain (token :: right)) :
    EndsPlain right := @EndsPlain.of_append [token] right plain

theorem Phrase.stands {kind : Kind} (phrase : Phrase kind) (identity : run.function = .unknown)
    (parts : phrase.tokens = before ++ .name run :: behind) (plain : EndsPlain before)
    (fits : phrase.nesting ≤ room) :
    Stands (before ≠ []) (before ++ behind) phrase.value room kind := by
  -- By the constructors: the name is taken from the part in which it stands. It is the first token
  -- of that part where the part may begin otherwise.
  induction phrase generalizing before behind room with
  | term only ih =>
    obtain ⟨other, tokens, value, fits⟩ := ih parts plain fits
    exact ⟨.term other, tokens, value, fits⟩
  | sum left sign right ih ih' =>
    obtain ⟨fits, fits'⟩ := Nat.max_le.mp fits
    rcases split_at_symbol parts with ⟨rest, front, rfl⟩ | ⟨rest, rfl, back⟩
    · obtain ⟨other, tokens, value, fits⟩ := ih front plain fits
      exact ⟨.sum other sign right, by simp [tokens, Phrase.tokens],
        by rw [Phrase.value, value]; rfl, Nat.max_le.mpr ⟨fits, fits'⟩⟩
    · obtain ⟨other, tokens, value, fits'⟩ := ih' back plain.of_append.of_cons fits'
      exact ⟨.sum left sign other, by simp [tokens, Phrase.tokens],
        by rw [Phrase.value, value]; rfl, Nat.max_le.mpr ⟨fits, fits'⟩⟩
  | factor only ih =>
    obtain ⟨_, _, other, tokens, value, fits⟩ := ih parts plain fits
    exact ⟨.factor other, tokens, value, fits⟩
  | product left scaling right ih ih' =>
    obtain ⟨fits, fits'⟩ := Nat.max_le.mp fits
    rcases split_at_symbol parts with ⟨rest, front, rfl⟩ | ⟨rest, rfl, back⟩
    · obtain ⟨other, tokens, value, fits⟩ := ih front plain fits
      exact ⟨.product other scaling right, by simp [tokens, Phrase.tokens],
        by rw [Phrase.value, value]; rfl, Nat.max_le.mpr ⟨fits, fits'⟩⟩
    · obtain ⟨_, _, other, tokens, value, fits'⟩ := ih' back plain.of_append.of_cons fits'
      exact ⟨.product left scaling other, by simp [tokens, Phrase.tokens],
        by rw [Phrase.value, value]; rfl, Nat.max_le.mpr ⟨fits, fits'⟩⟩
  | signed sign inner ih =>
    obtain ⟨room, rfl⟩ := Nat.exists_eq_add_one_of_ne_zero (Nat.ne_zero_of_lt fits)
    obtain ⟨rest, rfl, back⟩ := split_behind_symbol parts
    obtain ⟨_, _, other, tokens, value, fits⟩ := ih back plain.of_cons (Nat.le_of_succ_le_succ fits)
    exact ⟨false, fun _ => rfl, .signed sign other, by simp [tokens, Phrase.tokens],
      by rw [Phrase.value, value]; rfl, Nat.succ_le_succ fits⟩
  | primary only ih =>
    obtain ⟨room, rfl⟩ := Nat.exists_eq_add_one_of_ne_zero (Nat.ne_zero_of_lt fits)
    obtain ⟨opens, same, other, tokens, value, fits⟩ := ih parts plain (Nat.le_of_succ_le_succ fits)
    exact ⟨opens, same, .primary other, tokens, value, Nat.succ_le_succ fits⟩
  | power base exponent ih ih' =>
    obtain ⟨room, rfl⟩ := Nat.exists_eq_add_one_of_ne_zero (Nat.ne_zero_of_lt fits)
    obtain ⟨fits, fits'⟩ := Nat.max_le.mp (Nat.le_of_succ_le_succ fits)
    rcases split_at_symbol parts with ⟨rest, front, rfl⟩ | ⟨rest, rfl, back⟩
    · obtain ⟨opens, same, other, tokens, value, fits⟩ := ih front plain fits
      exact ⟨opens, same, .power other exponent, by simp [tokens, Phrase.tokens],
        by rw [Phrase.value, value]; rfl, Nat.succ_le_succ (Nat.max_le.mpr ⟨fits, fits'⟩)⟩
    · obtain ⟨_, _, other, tokens, value, fits'⟩ := ih' back plain.of_append.of_cons fits'
      exact ⟨_, fun _ => rfl, .power base other, by simp [tokens, Phrase.tokens],
        by rw [Phrase.value, value]; rfl, Nat.succ_le_succ (Nat.max_le.mpr ⟨fits, fits'⟩)⟩
  | application name argument ih =>
    obtain ⟨room, rfl⟩ := Nat.exists_eq_add_one_of_ne_zero (Nat.ne_zero_of_lt fits)
    have fits := Nat.le_of_succ_le_succ fits
    cases before with
    | nil =>
      obtain ⟨same, rfl⟩ := List.cons.inj parts
      obtain rfl := Token.name.inj same
      refine ⟨false, fun _ => rfl, argument, rfl, ?_, Nat.le_succ_of_le fits⟩
      rw [Phrase.value, identity]
      rfl
    | cons token before =>
      obtain ⟨rfl, back⟩ := List.cons.inj parts
      -- Nothing but this name would stand in front of the other one if it were the first token.
      have present : before ≠ [] := by
        rintro rfl
        exact plain _ rfl ⟨name, rfl⟩
      obtain ⟨opens, same, other, tokens, value, fits⟩ := ih back plain.of_cons fits
      obtain rfl := same present
      exact ⟨false, fun _ => rfl, .application name other, by simp [tokens, Phrase.tokens],
        by rw [Phrase.value, value]; rfl, Nat.succ_le_succ fits⟩
  | enclosed inner ih =>
    obtain ⟨rest, rfl, back⟩ := split_behind_symbol parts
    obtain ⟨rest', front, rfl⟩ := split_in_front_of_symbol back
    obtain ⟨other, tokens, value, fits⟩ := ih front plain.of_cons fits
    exact ⟨true, fun _ => rfl, .enclosed other, by simp [tokens, Phrase.tokens], value, fits⟩
  | number literal =>
    cases before with
    | nil => cases parts
    | cons token before =>
      obtain ⟨_, back⟩ := List.cons.inj parts
      simp at back
  | call name argument ih =>
    cases before with
    | nil =>
      obtain ⟨same, rfl⟩ := List.cons.inj parts
      obtain rfl := Token.name.inj same
      refine ⟨true, fun given => absurd rfl given, .enclosed argument, rfl, ?_, fits⟩
      rw [Phrase.value, Phrase.value, identity]
      rfl
    | cons token before =>
      obtain ⟨rfl, back⟩ := List.cons.inj parts
      obtain ⟨rest, rfl, inside⟩ := split_behind_symbol back
      obtain ⟨rest', front, rfl⟩ := split_in_front_of_symbol inside
      obtain ⟨other, tokens, value, fits⟩ := ih front plain.of_cons.of_cons fits
      exact ⟨false, fun _ => rfl, .call name other, by simp [tokens, Phrase.tokens],
        by rw [Phrase.value, value]; rfl, fits⟩

end

/-! Texts without a name. -/

namespace Spells

variable {tokens others : List Token} {text rest : List Char}

theorem append_of_space (first : Spells tokens text) (second : Spells others rest)
    (space : rest.head? = some ' ') : Spells (tokens ++ others) (text ++ rest) := by
  induction first with
  | blank count => exact second.indent count
  | @token count token tokens text apart spelled ih =>
    rw [List.append_assoc, List.append_assoc]
    refine .token count (fun name begins => ?_) ih
    cases spelled with
    | blank more => cases more <;> simp [spaces, List.replicate_succ, space]
    | @token more follower tokens text apart' spelled =>
      obtain ⟨run, more, begins⟩ := begins
      have ahead := apart name ⟨run, tokens, by simpa using And.left (List.cons.inj begins)⟩
      rw [List.head?_append, ahead]
      rfl

theorem endsPlain (spelled : Spells tokens text)
    (plain : ∀ c, text.reverse.find? (· ≠ ' ') = some c → Cursor.isLetter c = false) :
    EndsPlain tokens := by
  intro token last named
  obtain ⟨run, rfl⟩ := named
  obtain ⟨tokens, rfl⟩ := List.getLast?_eq_some_iff.mp last
  obtain ⟨before, after, rfl, _, ends⟩ := spelled.split
  cases ends with
  | token count _ blank =>
    cases blank with
    | blank count' =>
      obtain ⟨letters, c, wording⟩ :=
        (List.eq_nil_or_concat run.letters).resolve_left run.someLetter
      have letter : Cursor.isLetter c = true := run.letter c (by simp [wording])
      have visible : c ≠ ' ' := by
        rintro rfl
        exact absurd letter (by decide)
      have found := plain c (by simp [Token.text, wording, spaces, List.find?_append, visible])
      rw [letter] at found
      cases found

end Spells

theorem evaluate_of_length_eq {bounds : Bounds} {limit : Option Int} {text other : String}
    {value : Float} (evaluated : (evaluate bounds (.text text) limit).result = .ok value)
    (same : other.length = text.length) :
    evaluate bounds (.text other) limit = run (limit.getD bounds.maxDepth) bounds.stack other := by
  rw [evaluate, accept] at evaluated ⊢
  by_cases long : 0 < bounds.maxLength ∧ bounds.maxLength < text.length
  · rw [if_pos long] at evaluated
    cases evaluated
  · rw [same, if_neg long]

/-- A name outside the table of functions can be replaced by spaces: if a text is evaluated, the
text without the name has the same value, unless another name stands in front of it. -/
theorem evaluate_of_blanked (bounds : Bounds) (limit : Option Int) (before word behind : String)
    (value : Float)
    (evaluated : (evaluate bounds (.text (before ++ word ++ behind)) limit).result = .ok value)
    (present : word ≠ "") (letters : ∀ c ∈ word.toList, Cursor.isLetter c = true)
    (unknown : word ∉ Function.knownNames)
    (right : ∀ c, behind.toList.head? = some c → Cursor.isLetter c = false)
    (left : ∀ c, before.toList.reverse.find? (· ≠ ' ') = some c → Cursor.isLetter c = false) :
    (evaluate bounds (.text (before ++ String.ofList (spaces word.length) ++ behind))
      limit).result = .ok value := by
  have someLetter : word.toList ≠ [] := fun empty => present (String.toList_eq_nil_iff.mp empty)
  let name : Name := ⟨word.toList, letters, someLetter⟩
  have identity : name.function = .unknown := by
    rw [name.function_eq_unknown_iff, String.ofList_toList]
    exact unknown
  obtain ⟨tree, spelled, fits, rfl⟩ := spells_of_run (run_of_evaluate_result evaluated)
  have parts : (before ++ word ++ behind).toList =
      before.toList ++ (name.letters ++ behind.toList) := by
    simp [name]
  have ends : ∀ c, before.toList.getLast? = some c → Cursor.isLetter c = false := by
    intro c last
    by_cases blank : c = ' '
    · subst blank
      decide
    · apply left c
      obtain ⟨front, same⟩ := List.getLast?_eq_some_iff.mp last
      simp [same, blank]
  obtain ⟨first, second, tokens, front, back⟩ := spelled.exists_name parts ends right
  obtain ⟨other, tokens', value, fits'⟩ :=
    tree.stands identity tokens (front.endsPlain left) fits
  have blanked : Spells other.tokens
      (before ++ String.ofList (spaces word.length) ++ behind).toList := by
    rw [tokens', String.toList_append, String.toList_append, String.toList_ofList,
      List.append_assoc]
    have positive : word.length ≠ 0 := by rwa [← String.length_toList, Ne, List.length_eq_zero_iff]
    obtain ⟨count, length⟩ := Nat.exists_eq_add_one_of_ne_zero positive
    exact front.append_of_space (back.indent _) (by rw [length]; rfl)
  rw [evaluate_of_length_eq evaluated (by simp [String.length_ofList]), ← value]
  exact run_of_spells other blanked fits'

theorem evaluate_of_blanked_power :
    let square := (Literal.single '3' rfl).value.pow (Literal.single '2' rfl).value
    let value := (Literal.single '2' rfl).value * Binary64.negate square
    (evaluate .standard (.text ("2*-" ++ "foo" ++ " (3)^ 2")) none).result = .ok value ∧
      (evaluate .standard (.text ("2*-" ++ "   " ++ " (3)^ 2")) none).result = .ok value := by
  intro square value
  have evaluated : (evaluate .standard (.text ("2*-" ++ "foo" ++ " (3)^ 2")) none).result =
      .ok value := rfl
  have letters : ∀ c ∈ "foo".toList, Cursor.isLetter c = true := List.all_eq_true.mp (by decide)
  have right : ∀ c, " (3)^ 2".toList.head? = some c → Cursor.isLetter c = false := by
    intro c head
    obtain rfl : ' ' = c := Option.some.inj head
    decide
  have left : ∀ c, "2*-".toList.reverse.find? (· ≠ ' ') = some c → Cursor.isLetter c = false := by
    intro c last
    obtain rfl : '-' = c := Option.some.inj last
    decide
  exact ⟨evaluated, evaluate_of_blanked .standard none "2*-" "foo" " (3)^ 2" value evaluated
    (by decide) letters (by decide) right left⟩

end Reckoner.Grammar
