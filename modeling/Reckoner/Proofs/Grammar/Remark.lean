import Reckoner.Proofs.Grammar.Coverage
import Reckoner.Scan

/-!
The names outside the table of functions that a phrase applies, innermost first. Where an expression
breaks off, a stem is what has been read of a phrase. Of the unknown names in a text, a phrase notes
all and a stem those whose arguments are complete.
-/
namespace Reckoner.Grammar

variable {start other middle last : Cursor}

def Token.pass (token : Token) (start : Cursor) : Cursor :=
  ⟨start.skipSpaces.position + token.text.length, start.skipSpaces.unread.drop token.text.length⟩

def past (start : Cursor) : List Token → Cursor
  | [] => start
  | token :: others => past (token.pass start) others

theorem past_append (start : Cursor) (tokens others : List Token) :
    past start (tokens ++ others) = past (past start tokens) others := by
  induction tokens generalizing start with
  | nil => rfl
  | cons token tokens ih => exact ih (token.pass start)

theorem past_congr (same : start.skipSpaces = other.skipSpaces) (tokens : List Token) :
    (past start tokens).skipSpaces = (past other tokens).skipSpaces := by
  cases tokens with
  | nil => exact same
  | cons token tokens => simp only [past, Token.pass, same]

theorem Token.pass_eq {token : Token} (passed : start.skipSpaces.Passes token.text last) :
    token.pass start = last := by
  obtain ⟨place, unread⟩ := last
  have position := passed.position_eq
  have rest := passed.unread_eq
  simp only at position rest
  simp [Token.pass, position, rest]

theorem Covers.past_eq {tokens : List Token} (covered : Covers tokens start last) :
    (past start tokens).skipSpaces = last.skipSpaces := by
  induction tokens generalizing start with
  | nil =>
    obtain ⟨text, passed, spelled⟩ := covered
    cases spelled with
    | blank count => exact Cursor.skipSpaces_of_passes passed
  | cons token tokens ih =>
    obtain ⟨text, passed, spelled⟩ := covered
    obtain ⟨_, rest, whole, spelled, _⟩ := spelled.ahead passed
    obtain ⟨middle, first, further⟩ := whole.split
    rw [past, Token.pass_eq first]
    exact ih ⟨rest, further, spelled⟩

theorem Covers.past_symbol {tokens : List Token} (covered : Covers tokens start middle)
    (mark : Symbol) : past start (tokens ++ [.symbol mark]) = middle.skipSpaces.advance := by
  rw [past_append]
  change (Token.symbol mark).pass (past start tokens) = _
  rw [Token.pass, covered.past_eq]
  rfl

/-! Names in the order in which they are written. -/

def Name.remark (name : Name) (start : Cursor) : List Note :=
  if String.ofList name.letters ∈ Function.knownNames then []
  else [⟨String.ofList name.letters, start.skipSpaces.position⟩]

def Token.remark : Token → Cursor → List Note
  | .name run, start => run.remark start
  | .symbol _, _ => []
  | .number _, _ => []

def unknownNames (start : Cursor) : List Token → List Note
  | [] => []
  | token :: others => token.remark start ++ unknownNames (token.pass start) others

theorem Covers.position_le {tokens : List Token} (covered : Covers tokens start last) {note : Note}
    (member : note ∈ unknownNames start tokens) : note.position ≤ last.position := by
  induction tokens generalizing start with
  | nil => cases member
  | cons token tokens ih =>
    obtain ⟨text, passed, spelled⟩ := covered
    obtain ⟨_, rest, whole, spelled, _⟩ := spelled.ahead passed
    obtain ⟨middle, first, further⟩ := whole.split
    rcases List.mem_append.mp member with here | later
    · have begins : note.position = start.skipSpaces.position := by
        cases token with
        | name run =>
          rw [Token.remark, Name.remark] at here
          split at here
          · cases here
          · rw [List.mem_singleton.mp here]
        | symbol mark => cases here
        | number run => cases here
      rw [begins, whole.position_eq]
      exact Nat.le_add_right _ _
    · rw [Token.pass_eq first] at later
      exact ih ⟨rest, further, spelled⟩ later

theorem unknownNames_append (start : Cursor) (tokens others : List Token) :
    unknownNames start (tokens ++ others) =
      unknownNames start tokens ++ unknownNames (past start tokens) others := by
  induction tokens generalizing start with
  | nil => rfl
  | cons token tokens ih =>
    simp only [List.cons_append, unknownNames, past, ih, List.append_assoc]

theorem unknownNames_symbol (start : Cursor) (mark : Symbol) (tokens : List Token) :
    unknownNames start (.symbol mark :: tokens) =
      unknownNames (past start [.symbol mark]) tokens := rfl

theorem unknownNames_name (start : Cursor) (name : Name) (tokens : List Token) :
    unknownNames start (.name name :: tokens) =
      name.remark start ++ unknownNames (past start [.name name]) tokens := rfl

theorem unknownNames_concat_symbol (start : Cursor) (tokens : List Token) (mark : Symbol) :
    unknownNames start (tokens ++ [.symbol mark]) = unknownNames start tokens := by
  rw [unknownNames_append]
  exact List.append_nil _

theorem unknownNames_between (start : Cursor) (tokens : List Token) (mark : Symbol)
    (others : List Token) :
    unknownNames start (tokens ++ .symbol mark :: others) =
      unknownNames start tokens ++ unknownNames (past start (tokens ++ [.symbol mark])) others := by
  rw [unknownNames_append, unknownNames_symbol, past_append]

theorem Name.remark_congr (same : start.skipSpaces = other.skipSpaces) (name : Name) :
    name.remark start = name.remark other := by
  rw [Name.remark, Name.remark, same]

/-! Names in the order in which their arguments are complete. -/

/-- The unknown names that a phrase applies, each behind all those in its argument. -/
def Phrase.remarks : {kind : Kind} → Phrase kind → Cursor → List Note
  | _, .term only, start => only.remarks start
  | _, .sum left sign right, start =>
    left.remarks start ++ right.remarks (past start (left.tokens ++ [.symbol sign.symbol]))
  | _, .factor only, start => only.remarks start
  | _, .product left scaling right, start =>
    left.remarks start ++ right.remarks (past start (left.tokens ++ [.symbol scaling.symbol]))
  | _, .signed sign inner, start => inner.remarks (past start [.symbol sign.symbol])
  | _, .primary only, start => only.remarks start
  | _, .power base exponent, start =>
    base.remarks start ++ exponent.remarks (past start (base.tokens ++ [.symbol .caret]))
  | _, .application name argument, start =>
    argument.remarks (past start [.name name]) ++ name.remark start
  | _, .enclosed inner, start => inner.remarks (past start [.symbol .opening])
  | _, .number _, _ => []
  | _, .call name argument, start =>
    argument.remarks (past start [.name name, .symbol .opening]) ++ name.remark start

theorem Phrase.remarks_perm {kind : Kind} (phrase : Phrase kind) (start : Cursor) :
    (phrase.remarks start).Perm (unknownNames start phrase.tokens) := by
  induction phrase generalizing start with
  | term only ih => exact ih start
  | sum left sign right ih ih' =>
    rw [remarks, tokens, unknownNames_between]
    exact (ih start).append (ih' _)
  | factor only ih => exact ih start
  | product left scaling right ih ih' =>
    rw [remarks, tokens, unknownNames_between]
    exact (ih start).append (ih' _)
  | signed sign inner ih => exact ih _
  | primary only ih => exact ih start
  | power base exponent ih ih' =>
    rw [remarks, tokens, unknownNames_between]
    exact (ih start).append (ih' _)
  | application name argument ih =>
    -- A name is written in front of its argument and noted behind it.
    rw [remarks, tokens, unknownNames_name]
    exact ((ih _).append_right _).trans List.perm_append_comm
  | enclosed inner ih =>
    rw [remarks, tokens, unknownNames_symbol, unknownNames_concat_symbol]
    exact ih _
  | number literal => exact .nil
  | call name argument ih =>
    rw [remarks, tokens, unknownNames_name, unknownNames_symbol, unknownNames_concat_symbol,
      ← past_append]
    exact ((ih _).append_right _).trans List.perm_append_comm

theorem Phrase.remarks_congr {kind : Kind} (phrase : Phrase kind)
    (same : start.skipSpaces = other.skipSpaces) : phrase.remarks start = phrase.remarks other := by
  induction phrase generalizing start other with
  | term only ih => exact ih same
  | sum left sign right ih ih' =>
    rw [remarks, remarks, ih same, ih' (past_congr same _)]
  | factor only ih => exact ih same
  | product left scaling right ih ih' =>
    rw [remarks, remarks, ih same, ih' (past_congr same _)]
  | signed sign inner ih => exact ih (past_congr same _)
  | primary only ih => exact ih same
  | power base exponent ih ih' =>
    rw [remarks, remarks, ih same, ih' (past_congr same _)]
  | application name argument ih =>
    rw [remarks, remarks, ih (past_congr same _), name.remark_congr same]
  | enclosed inner ih => exact ih (past_congr same _)
  | number literal => rfl
  | call name argument ih =>
    rw [remarks, remarks, ih (past_congr same _), name.remark_congr same]

/-! Where an expression breaks off. -/

/-- What has been read of a phrase up to where no more of it can be read: the complete phrases on
the left of the place, and the open ones around it. What stands in parentheses may be complete there
for want of a closing one; else a factor is refused. -/
inductive Stem : Kind → Type where
  | complete (only : Phrase .expression) : Stem .expression
  | term (only : Stem .term) : Stem .expression
  | sum (left : Phrase .expression) (sign : Sign) (right : Stem .term) : Stem .expression
  | factor {opens : Bool} (only : Stem (.factor opens)) : Stem .term
  | product {opens : Bool} (left : Phrase .term) (scaling : Scaling)
      (right : Stem (.factor opens)) : Stem .term
  | refused : Stem (.factor false)
  | signed {opens : Bool} (sign : Sign) (inner : Stem (.factor opens)) : Stem (.factor false)
  | power {opens opens' : Bool} (base : Phrase (.primary opens))
      (exponent : Stem (.factor opens')) : Stem (.factor opens)
  | application (name : Name) (argument : Stem (.factor false)) : Stem (.factor false)
  | enclosed (inner : Stem .expression) : Stem (.factor true)
  | call (name : Name) (argument : Stem .expression) : Stem (.factor false)

namespace Stem

def tokens : {kind : Kind} → Stem kind → List Token
  | _, complete only => only.tokens
  | _, term only => only.tokens
  | _, sum left sign right => left.tokens ++ .symbol sign.symbol :: right.tokens
  | _, factor only => only.tokens
  | _, product left scaling right => left.tokens ++ .symbol scaling.symbol :: right.tokens
  | _, refused => []
  | _, signed sign inner => .symbol sign.symbol :: inner.tokens
  | _, power base exponent => base.tokens ++ .symbol .caret :: exponent.tokens
  | _, application name argument => .name name :: argument.tokens
  | _, enclosed inner => .symbol .opening :: inner.tokens
  | _, call name argument => .name name :: .symbol .opening :: argument.tokens

/-- The unknown names that have been applied, each behind all those in its argument. A name whose
argument is open has not been applied; one in parentheses is open until they are closed. -/
def remarks : {kind : Kind} → Stem kind → Cursor → List Note
  | _, complete only, start => only.remarks start
  | _, term only, start => only.remarks start
  | _, sum left sign right, start =>
    left.remarks start ++ right.remarks (past start (left.tokens ++ [.symbol sign.symbol]))
  | _, factor only, start => only.remarks start
  | _, product left scaling right, start =>
    left.remarks start ++ right.remarks (past start (left.tokens ++ [.symbol scaling.symbol]))
  | _, refused, _ => []
  | _, signed sign inner, start => inner.remarks (past start [.symbol sign.symbol])
  | _, power base exponent, start =>
    base.remarks start ++ exponent.remarks (past start (base.tokens ++ [.symbol .caret]))
  | _, application name argument, start => argument.remarks (past start [.name name])
  | _, enclosed inner, start => inner.remarks (past start [.symbol .opening])
  | _, call name argument, start =>
    argument.remarks (past start [.name name, .symbol .opening])

/-- The unknown names whose arguments are open, from the outside in. -/
def pending : {kind : Kind} → Stem kind → Cursor → List Note
  | _, complete _, _ => []
  | _, term only, start => only.pending start
  | _, sum left sign right, start =>
    right.pending (past start (left.tokens ++ [.symbol sign.symbol]))
  | _, factor only, start => only.pending start
  | _, product left scaling right, start =>
    right.pending (past start (left.tokens ++ [.symbol scaling.symbol]))
  | _, refused, _ => []
  | _, signed sign inner, start => inner.pending (past start [.symbol sign.symbol])
  | _, power base exponent, start =>
    exponent.pending (past start (base.tokens ++ [.symbol .caret]))
  | _, application name argument, start =>
    name.remark start ++ argument.pending (past start [.name name])
  | _, enclosed inner, start => inner.pending (past start [.symbol .opening])
  | _, call name argument, start =>
    name.remark start ++ argument.pending (past start [.name name, .symbol .opening])

theorem perm_behind {left left' applied waiting all : List Note} (before : left.Perm left')
    (behind : (applied ++ waiting).Perm all) :
    (left ++ applied ++ waiting).Perm (left' ++ all) := by
  rw [List.append_assoc]
  exact before.append behind

theorem perm_open {applied waiting all : List Note} (name : List Note)
    (inside : (applied ++ waiting).Perm all) :
    (applied ++ (name ++ waiting)).Perm (name ++ all) := by
  rw [← List.append_assoc]
  refine (List.perm_append_comm.append_right waiting).trans ?_
  rw [List.append_assoc]
  exact inside.append_left name

theorem remarks_perm {kind : Kind} (stem : Stem kind) (start : Cursor) :
    (stem.remarks start ++ stem.pending start).Perm (unknownNames start stem.tokens) := by
  induction stem generalizing start with
  | complete only =>
    rw [remarks, pending, List.append_nil]
    exact only.remarks_perm start
  | term only ih => exact ih start
  | sum left sign right ih =>
    rw [remarks, pending, tokens, unknownNames_between]
    exact perm_behind (left.remarks_perm start) (ih _)
  | factor only ih => exact ih start
  | product left scaling right ih =>
    rw [remarks, pending, tokens, unknownNames_between]
    exact perm_behind (left.remarks_perm start) (ih _)
  | refused => exact .nil
  | signed sign inner ih => exact ih _
  | power base exponent ih =>
    rw [remarks, pending, tokens, unknownNames_between]
    exact perm_behind (base.remarks_perm start) (ih _)
  | application name argument ih =>
    rw [remarks, pending, tokens, unknownNames_name]
    exact perm_open _ (ih _)
  | enclosed inner ih => exact ih _
  | call name argument ih =>
    rw [remarks, pending, tokens, unknownNames_name, unknownNames_symbol, ← past_append]
    exact perm_open _ (ih _)

theorem remarks_congr {kind : Kind} (stem : Stem kind)
    (same : start.skipSpaces = other.skipSpaces) :
    stem.remarks start = stem.remarks other := by
  induction stem generalizing start other with
  | complete only => exact only.remarks_congr same
  | term only ih => exact ih same
  | sum left sign right ih => rw [remarks, remarks, left.remarks_congr same, ih (past_congr same _)]
  | factor only ih => exact ih same
  | product left scaling right ih =>
    rw [remarks, remarks, left.remarks_congr same, ih (past_congr same _)]
  | refused => rfl
  | signed sign inner ih => exact ih (past_congr same _)
  | power base exponent ih =>
    rw [remarks, remarks, base.remarks_congr same, ih (past_congr same _)]
  | application name argument ih => exact ih (past_congr same _)
  | enclosed inner ih => exact ih (past_congr same _)
  | call name argument ih => exact ih (past_congr same _)

theorem tokens_of_opens (stem : Stem (.factor true)) :
    ∃ others, stem.tokens = .symbol .opening :: others := by
  cases stem with
  | power base exponent => cases base with | enclosed inner => exact ⟨_, rfl⟩
  | enclosed inner => exact ⟨_, rfl⟩

end Stem

end Reckoner.Grammar
