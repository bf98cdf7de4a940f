import Reckoner.Proofs.CommandLine.Preference

/-!
What a command line tells: the flags that it uses, from left to right, each with its value. An
argument spells a flag, or several short ones in one, and the last of them may have its value in the
next argument. A command line is read as if its uses were given one by one, and one that is accepted
has such a list of uses and nothing else in it.
-/
namespace Reckoner.CommandLine

abbrev Use := Flag × String

/-! One argument. -/

def further : List Char → Option (List Char)
  | [] => none
  | text => some text

/-- The uses in a flag with attached text, and the flag that still waits for a value behind them.
What is attached to a flag is its value. If it takes none and is a short one, the attached text
begins with the letter of another short flag, which the rest of the text is attached to. -/
inductive Reads : Flag → Bool → Option (List Char) → List Use → Option Flag → Prop
  | alone {flag : Flag} (valueless : flag.takesValue = false) (isShort : Bool) :
      Reads flag isShort none [(flag, "")] none
  | waits {flag : Flag} (valued : flag.takesValue = true) (isShort : Bool) :
      Reads flag isShort none [] (some flag)
  | value {flag : Flag} (valued : flag.takesValue = true) (isShort : Bool) (text : List Char) :
      Reads flag isShort (some text) [(flag, String.ofList text)] none
  | joined {flag next : Flag} {letter : Char} {rest : List Char} {uses : List Use}
      {waiting : Option Flag} (valueless : flag.takesValue = false)
      (short : Flag.ofName? (String.ofList ['-', letter]) = some next)
      (reads : Reads next true (further rest) uses waiting) :
      Reads flag true (some (letter :: rest)) ((flag, "") :: uses) waiting

theorem next?_of_valueless {flag : Flag} (valueless : flag.takesValue = false) (letter : Char) :
    next? flag letter = Flag.ofName? (String.ofList ['-', letter]) := by
  rw [next?, valueless]
  exact if_neg Bool.false_ne_true

theorem readAlone_of_reads {flag : Flag} {isShort : Bool} {uses : List Use}
    {waiting : Option Flag} (reads : Reads flag isShort none uses waiting) :
    readAlone flag = ⟨uses, waiting⟩ := by
  cases reads with
  | alone valueless _ =>
    rw [readAlone, valueless]
    exact if_neg Bool.false_ne_true
  | waits valued _ => rw [readAlone, if_pos valued]

theorem Reads.readFlag_eq {flag : Flag} {isShort : Bool} {attached : Option (List Char)}
    {uses : List Use} {waiting : Option Flag} (reads : Reads flag isShort attached uses waiting) :
    readFlag flag isShort attached = .ok ⟨uses, waiting⟩ := by
  induction reads with
  | alone valueless isShort =>
    exact congrArg Except.ok (readAlone_of_reads (.alone valueless isShort))
  | waits valued isShort =>
    exact congrArg Except.ok (readAlone_of_reads (.waits valued isShort))
  | value valued isShort text => exact readFlag_attached valued isShort text
  | @joined flag next letter rest uses waiting valueless short reads ih =>
    have follows : next? flag letter = some next :=
      (next?_of_valueless valueless letter).trans short
    cases rest with
    | nil =>
      have last : readAlone next = ⟨uses, waiting⟩ := readAlone_of_reads reads
      simp only [readFlag, ↓reduceIte, readJoined, follows, List.isEmpty_nil, last]
      rfl
    | cons letter' rest =>
      have behind : readJoined next (letter' :: rest) = .ok ⟨uses, waiting⟩ := ih
      simp only [readFlag, ↓reduceIte, readJoined.eq_2, follows, List.isEmpty_cons,
        Bool.false_eq_true, behind]
      rfl

theorem reads_readAlone (flag : Flag) (isShort : Bool) :
    Reads flag isShort none (readAlone flag).actions (readAlone flag).waiting := by
  rw [readAlone]
  split
  next valued => exact .waits valued isShort
  next valueless => exact .alone (Bool.not_eq_true _ ▸ valueless) isShort

theorem reads_of_readWithValue {flag : Flag} (isShort : Bool) {text : List Char}
    {reading : Reading} (read : readWithValue flag text = .ok reading) :
    Reads flag isShort (some text) reading.actions reading.waiting := by
  rw [readWithValue] at read
  split at read
  next valued =>
    obtain rfl := Except.ok.inj read
    exact .value valued isShort text
  next => cases read

theorem reads_of_readJoined {flag : Flag} {text : List Char} {reading : Reading}
    (read : readJoined flag text = .ok reading) :
    Reads flag true (some text) reading.actions reading.waiting := by
  induction text generalizing flag reading with
  | nil =>
    rw [readJoined] at read
    exact reads_of_readWithValue true read
  | cons letter rest ih =>
    rw [readJoined] at read
    cases follows : next? flag letter with
    | none =>
      rw [follows] at read
      exact reads_of_readWithValue true read
    | some next =>
      have valueless : flag.takesValue = false := by
        cases valued : flag.takesValue with
        | false => rfl
        | true =>
          rw [next?, if_pos valued] at follows
          cases follows
      have short : Flag.ofName? (String.ofList ['-', letter]) = some next :=
        (next?_of_valueless valueless letter).symm.trans follows
      rw [follows] at read
      cases rest with
      | nil =>
        obtain rfl := Except.ok.inj read
        exact .joined valueless short (reads_readAlone next true)
      | cons letter' rest =>
        simp only [List.isEmpty_cons, Bool.false_eq_true, ↓reduceIte] at read
        cases behind : readJoined next (letter' :: rest) with
        | error fault =>
          rw [behind] at read
          cases read
        | ok reading' =>
          rw [behind] at read
          obtain rfl := Except.ok.inj read
          exact .joined valueless short (ih behind)

theorem reads_of_readFlag {flag : Flag} {isShort : Bool} {attached : Option (List Char)}
    {reading : Reading} (read : readFlag flag isShort attached = .ok reading) :
    Reads flag isShort attached reading.actions reading.waiting := by
  cases attached with
  | none =>
    obtain rfl := Except.ok.inj read
    exact reads_readAlone flag isShort
  | some text =>
    cases isShort with
    | false => exact reads_of_readWithValue false read
    | true => exact reads_of_readJoined read

/-! A whole command line. -/

/-- Arguments that tell a list of uses. A value in an argument of its own must not be mistaken for a
flag. -/
inductive Tells : List String → List Use → Prop
  | nil : Tells [] []
  | whole {text : List Char} {flag : Flag} {isShort : Bool} {attached : Option (List Char)}
      {uses more : List Use} {rest : List String} (spelled : Spelled text flag isShort attached)
      (reads : Reads flag isShort attached uses none) (further : Tells rest more) :
      Tells (String.ofList text :: rest) (uses ++ more)
  | apart {text : List Char} {flag waiting : Flag} {isShort : Bool} {attached : Option (List Char)}
      {uses more : List Use} {value : String} {rest : List String}
      (spelled : Spelled text flag isShort attached)
      (reads : Reads flag isShort attached uses (some waiting))
      (proper : ¬Mistaken value.toList) (further : Tells rest more) :
      Tells (String.ofList text :: value :: rest) (uses ++ (waiting, value) :: more)

theorem applyAll_append (request : Request) (uses more : List Use) :
    applyAll request (uses ++ more) =
      (applyAll request uses).bind fun request' => applyAll request' more := by
  induction uses generalizing request with
  | nil => rfl
  | cons use rest ih =>
    obtain ⟨flag, value⟩ := use
    rw [List.cons_append, applyAll, applyAll]
    cases flag.apply value request with
    | error halt => rfl
    | ok request' => exact ih request'

theorem Spelled.ne_mark {text : List Char} {flag : Flag} {isShort : Bool}
    {attached : Option (List Char)} (spelled : Spelled text flag isShort attached) :
    String.ofList text ≠ "--" := by
  intro same
  have mark : text = ['-', '-'] := by
    rw [← String.toList_ofList (l := text), same]
    rfl
  have role := spelled.classify
  rw [mark] at role
  cases role

theorem ne_mark_of_proper {value : String} (proper : ¬Mistaken value.toList) : value ≠ "--" := by
  rintro rfl
  exact proper (by decide)

theorem Tells.gathered {arguments : List String} {uses : List Use} (tells : Tells arguments uses) :
    ∃ roles, classifyAll arguments = .ok roles ∧ ∀ request leftover,
      gather request leftover roles = (applyAll request uses).map (·, leftover) := by
  induction tells with
  | nil => exact ⟨[], rfl, fun _ _ => rfl⟩
  | @whole text flag isShort attached uses more rest spelled reads further ih =>
    obtain ⟨roles, classified, gathered⟩ := ih
    refine ⟨(String.ofList text, some (.flag flag isShort attached)) :: roles, ?_, ?_⟩
    · rw [classifyAll_cons spelled.ne_mark spelled.classify, classified]
      rfl
    · intro request leftover
      rw [gather, reads.readFlag_eq, applyAll_append]
      change ((applyAll request uses).bind fun request => gather request leftover roles) = _
      cases applyAll request uses with
      | error halt => rfl
      | ok request' => exact gathered request' leftover
  | @apart text flag waiting isShort attached uses more value rest spelled reads proper _ ih =>
    obtain ⟨roles, classified, gathered⟩ := ih
    have operand := (classify_eq_operand_iff value.toList).mpr proper
    rw [String.ofList_toList] at operand
    refine ⟨(String.ofList text, some (.flag flag isShort attached)) ::
      (value, some .operand) :: roles, ?_, ?_⟩
    · rw [classifyAll_cons spelled.ne_mark spelled.classify,
        classifyAll_cons (ne_mark_of_proper proper) operand, classified]
      rfl
    · intro request leftover
      rw [List.append_cons uses, applyAll_append, gather, reads.readFlag_eq]
      change ((applyAll request (uses ++ [(waiting, value)])).bind fun request =>
        gather request leftover roles) = _
      cases applyAll request (uses ++ [(waiting, value)]) with
      | error halt => rfl
      | ok request' => exact gathered request' leftover

theorem Tells.parse_eq {arguments : List String} {uses : List Use} (tells : Tells arguments uses) :
    parse arguments = applyAll {} uses := by
  obtain ⟨roles, classified, gathered⟩ := tells.gathered
  rw [parse, classified]
  change ((gather {} [] roles).bind _) = _
  rw [gathered]
  cases applyAll {} uses <;> rfl

/-! Accepted command lines. -/

theorem bind_eq_ok {ε α β : Type} {first : Except ε α} {next : α → Except ε β} {result : β}
    (succeeded : first.bind next = .ok result) :
    ∃ value, first = .ok value ∧ next value = .ok result := by
  cases first with
  | error fault => cases succeeded
  | ok value => exact ⟨value, rfl, succeeded⟩

theorem mapError_eq_ok {ε ε' α : Type} {f : ε → ε'} {first : Except ε α} {value : α}
    (succeeded : first.mapError f = .ok value) : first = .ok value := by
  cases first with
  | error fault => cases succeeded
  | ok value' => rw [Except.ok.inj succeeded]

inductive Gathers (request : Request) (leftover : List String) (outcome : Request × List String) :
    String × Option Role → List (String × Option Role) → Prop
  | whole {argument : String} {flag : Flag} {isShort : Bool} {attached : Option (List Char)}
      {uses : List Use} {request' : Request} {rest : List (String × Option Role)}
      (reads : Reads flag isShort attached uses none)
      (applied : applyAll request uses = .ok request')
      (later : gather request' leftover rest = .ok outcome) :
      Gathers request leftover outcome (argument, some (.flag flag isShort attached)) rest
  | apart {argument : String} {flag waiting : Flag} {isShort : Bool}
      {attached : Option (List Char)} {uses : List Use} {value : String} {request' : Request}
      {rest : List (String × Option Role)} (reads : Reads flag isShort attached uses (some waiting))
      (applied : applyAll request (uses ++ [(waiting, value)]) = .ok request')
      (later : gather request' leftover rest = .ok outcome) :
      Gathers request leftover outcome (argument, some (.flag flag isShort attached))
        ((value, some .operand) :: rest)
  | left {argument : String} {role : Option Role} {rest : List (String × Option Role)}
      (later : gather request (leftover ++ [argument]) rest = .ok outcome) :
      Gathers request leftover outcome (argument, role) rest

theorem gathers_of_gather {request : Request} {leftover : List String}
    {outcome : Request × List String} {first : String × Option Role}
    {rest : List (String × Option Role)}
    (gathered : gather request leftover (first :: rest) = .ok outcome) :
    Gathers request leftover outcome first rest := by
  obtain ⟨argument, role⟩ := first
  rcases role with _ | _ | ⟨flag, isShort, attached⟩ | _
  · exact .left gathered
  · exact .left gathered
  · rw [gather] at gathered
    obtain ⟨reading, read, gathered⟩ := bind_eq_ok gathered
    have reads := reads_of_readFlag (mapError_eq_ok read)
    cases waiting : reading.waiting with
    | none =>
      rw [waiting] at gathered reads
      obtain ⟨request', applied, later⟩ := bind_eq_ok gathered
      exact .whole reads applied later
    | some flag' =>
      rw [waiting] at gathered reads
      -- The flag takes its value from the next argument, which has to be an operand.
      rcases rest with _ | ⟨⟨value, _ | _ | _ | _⟩, rest⟩
      · cases gathered
      · cases gathered
      · obtain ⟨request', applied, later⟩ := bind_eq_ok gathered
        exact .apart reads applied later
      · cases gathered
      · cases gathered
  · exact .left gathered

theorem leftover_prefix_of_gather {request request' : Request} {leftover leftover' : List String}
    {roles : List (String × Option Role)}
    (gathered : gather request leftover roles = .ok (request', leftover')) :
    leftover <+: leftover' := by
  match roles with
  | [] =>
    obtain ⟨_, rfl⟩ := Prod.mk.inj (Except.ok.inj gathered)
    exact List.prefix_rfl
  | first :: rest =>
    cases gathers_of_gather gathered with
    | whole _ _ later => exact leftover_prefix_of_gather later
    | apart _ _ later => exact leftover_prefix_of_gather later
    | left later => exact (List.prefix_append _ _).trans (leftover_prefix_of_gather later)
termination_by roles.length

theorem gather_concat_ne {request request' : Request} {leftover : List String} {argument : String}
    {roles : List (String × Option Role)} :
    gather request (leftover ++ [argument]) roles ≠ .ok (request', []) := by
  intro gathered
  have more := leftover_prefix_of_gather gathered
  rw [List.prefix_nil] at more
  simp at more

theorem classifyAll_eq_ok {argument : String} {rest : List String}
    {roles : List (String × Option Role)} (unmarked : argument ≠ "--")
    (classified : classifyAll (argument :: rest) = .ok roles) :
    ∃ role roles', classify argument = .ok role ∧ classifyAll rest = .ok roles' ∧
      roles = (argument, some role) :: roles' := by
  rw [classifyAll.eq_3 _ _ (fun same => unmarked same)] at classified
  obtain ⟨role, known, classified⟩ := bind_eq_ok classified
  obtain ⟨roles', others, same⟩ := bind_eq_ok classified
  exact ⟨role, roles', known, others, (Except.ok.inj same).symm⟩

theorem exists_of_classifyAll_operand {arguments : List String} {value : String}
    {roles : List (String × Option Role)}
    (classified : classifyAll arguments = .ok ((value, some .operand) :: roles)) :
    ∃ rest, arguments = value :: rest ∧ ¬Mistaken value.toList ∧ classifyAll rest = .ok roles := by
  match arguments with
  | [] => cases classified
  | argument :: rest =>
    by_cases mark : argument = "--"
    · subst mark
      cases classified
    · obtain ⟨role, roles', known, others, same⟩ := classifyAll_eq_ok mark classified
      obtain ⟨first, rfl⟩ := List.cons.inj same
      obtain ⟨rfl, operand⟩ := Prod.mk.inj first
      rw [← Option.some.inj operand, ← String.ofList_toList (s := value)] at known
      exact ⟨rest, rfl, (classify_eq_operand_iff _).mp known, others⟩

theorem tells_of_gather {arguments : List String} {roles : List (String × Option Role)}
    {request request' : Request} (classified : classifyAll arguments = .ok roles)
    (gathered : gather request [] roles = .ok (request', [])) :
    ∃ uses, Tells arguments uses ∧ applyAll request uses = .ok request' := by
  match arguments with
  | [] =>
    obtain rfl := Except.ok.inj classified
    exact ⟨[], .nil, congrArg Except.ok (Prod.mk.inj (Except.ok.inj gathered)).1⟩
  | argument :: rest =>
    by_cases mark : argument = "--"
    · subst mark
      obtain rfl := Except.ok.inj classified
      cases gathers_of_gather gathered with
      | left later => exact absurd later gather_concat_ne
    · obtain ⟨role, roles', known, others, rfl⟩ := classifyAll_eq_ok mark classified
      rw [← String.ofList_toList (s := argument)] at known
      cases gathers_of_gather gathered with
      | left later => exact absurd later gather_concat_ne
      | @whole _ flag isShort attached uses middle _ reads applied later =>
        obtain ⟨more, tells, made⟩ := tells_of_gather others later
        have spelled := classify_eq_flag_iff.mp known
        refine ⟨uses ++ more, ?_, ?_⟩
        · rw [← String.ofList_toList (s := argument)]
          exact .whole spelled reads tells
        · rw [applyAll_append, applied]
          exact made
      | @apart _ flag waiting isShort attached uses value middle _ reads applied later =>
        obtain ⟨behind, rfl, proper, others⟩ := exists_of_classifyAll_operand others
        obtain ⟨more, tells, made⟩ := tells_of_gather others later
        have spelled := classify_eq_flag_iff.mp known
        refine ⟨uses ++ (waiting, value) :: more, ?_, ?_⟩
        · rw [← String.ofList_toList (s := argument)]
          exact .apart spelled reads proper tells
        · rw [List.append_cons, applyAll_append, applied]
          exact made
termination_by arguments.length

theorem parse_eq_ok_iff {arguments : List String} {request : Request} :
    parse arguments = .ok request ↔
      ∃ uses, Tells arguments uses ∧ applyAll {} uses = .ok request := by
  constructor
  · intro parsed
    obtain ⟨roles, classified, parsed⟩ := bind_eq_ok parsed
    obtain ⟨⟨request', leftover⟩, gathered, parsed⟩ := bind_eq_ok parsed
    have nothing : leftover = [] ∧ request' = request := by
      cases leftover with
      | nil => exact ⟨rfl, Except.ok.inj parsed⟩
      | cons argument others => cases parsed
    obtain ⟨rfl, rfl⟩ := nothing
    exact tells_of_gather (mapError_eq_ok classified) gathered
  · rintro ⟨uses, tells, made⟩
    rw [tells.parse_eq, made]

end Reckoner.CommandLine
