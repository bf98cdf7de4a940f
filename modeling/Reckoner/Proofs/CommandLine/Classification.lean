import Mathlib.Data.List.Infix
import Mathlib.Data.List.TakeWhile
import Mathlib.Tactic.MkIffOfInductiveProp
import Reckoner.CommandLine.Arguments

/-!
What an argument is taken for by its own text. It can be the value of the flag in front of it unless
it looks like a flag itself, and there are only a few ways to spell a flag: by a name with or
without text behind an equals sign, or by a short name with text joined to it.
-/
namespace Reckoner.CommandLine

/-! Names. -/

theorem shape_of_mem_table : ∀ entry ∈ Flag.table, entry.1.toList.take 1 = ['-'] ∧
    (entry.1.toList.length = 2 ∧ entry.1.toList.take 2 ≠ ['-', '-'] ∨
      2 < entry.1.toList.length ∧ entry.1.toList.take 2 = ['-', '-']) := by
  decide

theorem mem_table_of_ofName? {name : List Char} {flag : Flag}
    (known : Flag.ofName? (String.ofList name) = some flag) :
    (String.ofList name, flag) ∈ Flag.table := by
  obtain ⟨front, back, table, _⟩ := List.lookup_eq_some_iff.mp known
  rw [table]
  exact List.mem_append_right _ List.mem_cons_self

theorem ofName?_of_equals {text : List Char} (equals : '=' ∈ text) :
    Flag.ofName? (String.ofList text) = none := by
  have plain : Flag.table.all (fun entry => !entry.1.toList.contains '=') = true := by decide
  apply List.lookup_eq_none_iff.mpr
  intro entry member
  have absent := List.all_eq_true.mp plain entry member
  rw [bne_iff_ne]
  rintro same
  rw [← same, String.toList_ofList] at absent
  simp [equals] at absent

/-! Attached text. -/

def attach (name : List Char) : Option (List Char) → List Char
  | none => name
  | some value => name ++ '=' :: value

theorem take_attach {name : List Char} {count : Nat} (enough : count ≤ name.length)
    (attached : Option (List Char)) : (attach name attached).take count = name.take count := by
  cases attached with
  | none => rfl
  | some value => exact List.take_append_of_le_length enough

theorem ne_equals_of_mem {name : List Char} (plain : '=' ∉ name) :
    ∀ c ∈ name, (decide (c ≠ '=')) = true := by
  intro c member
  exact decide_eq_true fun same => plain (same ▸ member)

theorem takeWhile_attach {name : List Char} (plain : '=' ∉ name)
    (attached : Option (List Char)) : (attach name attached).takeWhile (· ≠ '=') = name := by
  cases attached with
  | none => exact List.takeWhile_eq_self_iff.mpr (ne_equals_of_mem plain)
  | some value =>
    rw [attach, List.takeWhile_append_of_pos (ne_equals_of_mem plain)]
    simp

theorem splitEquals_attach {name : List Char} (plain : '=' ∉ name) (attached : Option (List Char)) :
    splitEquals (attach name attached) = (name, attached) := by
  cases attached with
  | none =>
    have nothing : name.dropWhile (fun c => decide (c ≠ '=')) = [] :=
      List.dropWhile_eq_nil_iff.mpr (ne_equals_of_mem plain)
    rw [attach, splitEquals, nothing]
  | some value =>
    have behind : (attach name (some value)).dropWhile (fun c => decide (c ≠ '=')) =
        '=' :: value := by
      rw [attach, List.dropWhile_append_of_pos (ne_equals_of_mem plain)]
      simp
    rw [splitEquals, behind, takeWhile_attach plain]

theorem exists_attach (text : List Char) :
    ∃ name attached, '=' ∉ name ∧ text = attach name attached := by
  have plain : '=' ∉ text.takeWhile (· ≠ '=') := by
    intro member
    have other := List.all_eq_true.mp List.all_takeWhile _ member
    simp at other
  have whole := List.takeWhile_append_dropWhile (p := (· ≠ '=')) (l := text)
  cases behind : text.dropWhile (· ≠ '=') with
  | nil =>
    rw [behind, List.append_nil] at whole
    exact ⟨_, none, plain, whole.symm⟩
  | cons c attached =>
    have stop := List.head?_dropWhile_not (· ≠ '=') text
    rw [behind] at stop
    obtain rfl : c = '=' := by simpa using stop
    rw [behind] at whole
    exact ⟨_, some attached, plain, whole.symm⟩

theorem exactFlag?_attach {name : List Char} (plain : '=' ∉ name) (attached : Option (List Char)) :
    exactFlag? (attach name attached) = (Flag.ofName? (String.ofList name)).map fun flag =>
      .flag flag (isShortName (String.ofList name)) attached := by
  rw [exactFlag?, splitEquals_attach plain attached]
  cases attached with
  | none =>
    rw [attach]
    cases Flag.ofName? (String.ofList name) <;> rfl
  | some value =>
    rw [attach, ofName?_of_equals (List.mem_append_right _ List.mem_cons_self)]

theorem filterMap_eq_map (table : List (String × Flag)) (start : List Char)
    (attached : Option (List Char)) :
    (table.filterMap fun (name, flag) =>
      if start.isPrefixOf name.toList then some (name, Role.flag flag false attached) else none) =
      (table.filter fun entry => start.isPrefixOf entry.1.toList).map fun entry =>
        (entry.1, Role.flag entry.2 false attached) := by
  induction table with
  | nil => rfl
  | cons entry table ih =>
    obtain ⟨name, flag⟩ := entry
    rw [List.filterMap_cons, List.filter_cons, ih]
    cases begins : start.isPrefixOf name.toList <;> simp [begins]

theorem abbreviated_of_long {name : List Char} (plain : '=' ∉ name)
    {attached : Option (List Char)} (long : (attach name attached).take 2 = ['-', '-']) :
    abbreviated (attach name attached) =
      (Flag.table.filter fun entry => name.isPrefixOf entry.1.toList).map fun entry =>
        (entry.1, .flag entry.2 false attached) := by
  rw [abbreviated, if_pos long, splitEquals_attach plain attached]
  exact filterMap_eq_map Flag.table name attached

theorem classify_of_exactFlag? {text : List Char} {role : Role}
    (dashed : text.take 1 = ['-'] ∧ 2 ≤ text.length) (exact : exactFlag? text = some role) :
    classify (String.ofList text) = .ok role := by
  have long : text.length ≠ 1 := by omega
  simp [classify, dashed.1, long, exact]

theorem classify_of_abbreviated {text : List Char} {full : String} {role : Role}
    (dashed : text.take 1 = ['-'] ∧ 2 ≤ text.length) (unknown : exactFlag? text = none)
    (only : abbreviated text = [(full, role)]) : classify (String.ofList text) = .ok role := by
  have long : text.length ≠ 1 := by omega
  simp [classify, dashed.1, long, unknown, only]

/-! Names that mean a flag. -/

/-- A name that means one flag: in full, or cut short where no other name begins like it. -/
@[mk_iff]
structure Means (name : List Char) (flag : Flag) : Prop where
  dashed : name.take 1 = ['-'] ∧ 2 ≤ name.length
  plain : '=' ∉ name
  only : Flag.ofName? (String.ofList name) = some flag ∨
    Flag.ofName? (String.ofList name) = none ∧ name.take 2 = ['-', '-'] ∧
      (Flag.table.filter fun entry => name.isPrefixOf entry.1.toList).map (·.2) = [flag]

instance (name : List Char) (flag : Flag) : Decidable (Means name flag) :=
  decidable_of_iff _ (means_iff name flag).symm

theorem means_of_ofName? {name : List Char} {flag : Flag}
    (known : Flag.ofName? (String.ofList name) = some flag) : Means name flag := by
  obtain ⟨dash, shape⟩ := shape_of_mem_table _ (mem_table_of_ofName? known)
  rw [String.toList_ofList] at dash shape
  refine ⟨⟨dash, by omega⟩, fun equals => ?_, Or.inl known⟩
  rw [ofName?_of_equals equals] at known
  cases known

theorem Means.classify {name : List Char} {flag : Flag} (means : Means name flag)
    (attached : Option (List Char)) : classify (String.ofList (attach name attached)) =
      .ok (.flag flag (isShortName (String.ofList name)) attached) := by
  have dashed : (attach name attached).take 1 = ['-'] ∧ 2 ≤ (attach name attached).length := by
    have dashed := means.dashed
    rw [take_attach (by omega)]
    cases attached with
    | none => exact dashed
    | some value =>
      rw [attach, List.length_append]
      exact ⟨dashed.1, by omega⟩
  have exact := exactFlag?_attach means.plain attached
  -- A name in full wins over all names that it begins, and else the only one that it begins counts.
  rcases means.only with full | ⟨cut, long, only⟩
  · rw [full, Option.map_some] at exact
    exact classify_of_exactFlag? dashed exact
  · have start : (attach name attached).take 2 = ['-', '-'] :=
      (take_attach means.dashed.2 attached).trans long
    obtain ⟨entry, entries, rfl⟩ := List.map_eq_singleton_iff.mp only
    have candidates := abbreviated_of_long means.plain start
    rw [entries] at candidates
    have short : isShortName (String.ofList name) = false := by
      simp [isShortName, long]
    rw [cut, Option.map_none] at exact
    rw [short]
    exact classify_of_abbreviated dashed exact candidates

theorem Means.ne_mark {name : List Char} {flag : Flag} (means : Means name flag) :
    name ≠ ['-', '-'] := by
  rintro rfl
  have unknown : Flag.ofName? (String.ofList ['-', '-']) = none := by decide
  have many : (Flag.table.filter fun entry =>
      ['-', '-'].isPrefixOf entry.1.toList).length = 10 := by decide
  rcases means.only with full | ⟨_, _, only⟩
  · rw [unknown] at full
    cases full
  · have single := congrArg List.length only
    rw [List.length_map, many, List.length_singleton] at single
    omega

/-! Text joined to a short name. -/

theorem mem_letters_of_ofName? {letter : Char} {flag : Flag}
    (short : Flag.ofName? (String.ofList ['-', letter]) = some flag) :
    letter ∈ ['h', 'e', 'p', 'v'] := by
  have letters : ∀ entry ∈ Flag.table, entry.1.toList.length = 2 →
      entry.1.toList.drop 1 ∈ ['h', 'e', 'p', 'v'].map ([·]) := by decide
  have member := letters _ (mem_table_of_ofName? short)
  rw [String.toList_ofList] at member
  simpa using member rfl

theorem ofName?_joined {letter : Char} (other : letter ≠ '-') {rest : List Char}
    (present : rest ≠ []) : Flag.ofName? (String.ofList ('-' :: letter :: rest)) = none := by
  cases known : Flag.ofName? (String.ofList ('-' :: letter :: rest)) with
  | none => rfl
  | some flag =>
    obtain ⟨_, shape⟩ := shape_of_mem_table _ (mem_table_of_ofName? known)
    rw [String.toList_ofList] at shape
    simp [other, present] at shape

theorem classify_joined {letter : Char} {flag : Flag} {text : List Char}
    (short : Flag.ofName? (String.ofList ['-', letter]) = some flag) (present : text ≠ [])
    (apart : text.head? ≠ some '=') :
    classify (String.ofList ('-' :: letter :: text)) = .ok (.flag flag true (some text)) := by
  have letters := mem_letters_of_ofName? short
  have dash : letter ≠ '-' := by
    rintro rfl
    revert letters
    decide
  have equals : letter ≠ '=' := by
    rintro rfl
    revert letters
    decide
  have unknown : exactFlag? ('-' :: letter :: text) = none := by
    obtain ⟨name, attached, plain, whole⟩ := exists_attach ('-' :: letter :: text)
    have front := takeWhile_attach plain attached
    rw [← whole] at front
    obtain ⟨first, rest, rfl⟩ := List.exists_cons_of_ne_nil present
    have first' : first ≠ '=' := fun same => apart (congrArg some same)
    simp only [ne_eq, List.takeWhile_cons, equals, first', not_false_eq_true, decide_true,
      ↓reduceIte, Char.reduceEq] at front
    rw [whole, exactFlag?_attach plain, ← front, ofName?_joined dash (List.cons_ne_nil _ _)]
    rfl
  have only : abbreviated ('-' :: letter :: text) =
      [(String.ofList ['-', letter], .flag flag true (some text))] := by
    simp only [List.mem_cons, List.not_mem_nil, or_false] at letters
    rcases letters with rfl | rfl | rfl | rfl <;> obtain rfl := Option.some.inj short <;> rfl
  exact classify_of_abbreviated (by simp) unknown only

/-! Values. -/

/-- A text begins a flag if a short name stands at its front, or if what stands in front of its
first equals sign begins a long name. -/
def BeginsFlag (text : List Char) : Prop :=
  ∃ entry ∈ Flag.table, entry.1.toList = text.take 2 ∨
    text.take 2 = ['-', '-'] ∧ text.takeWhile (· ≠ '=') <+: entry.1.toList

instance (text : List Char) : Decidable (BeginsFlag text) :=
  inferInstanceAs (Decidable (∃ entry ∈ Flag.table, _))

/-- A text that is mistaken for a flag where a value is expected: a dash and more, which begins a
flag, or else neither is a negative number nor has a space. -/
def Mistaken (text : List Char) : Prop :=
  (text.take 1 = ['-'] ∧ text.length ≠ 1) ∧
    (BeginsFlag text ∨ isNegativeNumber text = false ∧ ' ' ∉ text)

instance (text : List Char) : Decidable (Mistaken text) :=
  inferInstanceAs (Decidable (_ ∧ _))

theorem beginsFlag_of_ofName? {name : List Char} {flag : Flag}
    (known : Flag.ofName? (String.ofList name) = some flag) (attached : Option (List Char)) :
    BeginsFlag (attach name attached) := by
  have means := means_of_ofName? known
  have member := mem_table_of_ofName? known
  obtain ⟨_, shape⟩ := shape_of_mem_table _ member
  refine ⟨_, member, ?_⟩
  rw [takeWhile_attach means.plain, take_attach means.dashed.2]
  rw [String.toList_ofList] at shape ⊢
  rcases shape with ⟨short, _⟩ | ⟨_, long⟩
  · exact Or.inl (List.take_of_length_le (Nat.le_of_eq short)).symm
  · exact Or.inr ⟨long, List.prefix_rfl⟩

theorem abbreviated_eq_nil_iff (text : List Char) : abbreviated text = [] ↔ ¬BeginsFlag text := by
  obtain ⟨name, attached, plain, rfl⟩ := exists_attach text
  rw [BeginsFlag, takeWhile_attach plain]
  by_cases long : (attach name attached).take 2 = ['-', '-']
  · have other : ∀ entry ∈ Flag.table, entry.1.toList ≠ ['-', '-'] := by decide
    rw [abbreviated_of_long plain long, List.map_eq_nil_iff, List.filter_eq_nil_iff]
    simp only [List.isPrefixOf_iff_prefix, long, true_and, not_exists, not_and, not_or]
    exact ⟨fun none entry member => ⟨other entry member, none entry member⟩,
      fun none entry member => (none entry member).2⟩
  · rw [abbreviated, if_neg long, List.filterMap_eq_nil_iff]
    simp only [long, false_and, or_false, not_exists, not_and, ite_eq_right_iff, reduceCtorEq,
      imp_false]

/-! Roles. -/

inductive Spelled : List Char → Flag → Bool → Option (List Char) → Prop where
  | named {name : List Char} {flag : Flag} (means : Means name flag)
      (attached : Option (List Char)) :
      Spelled (attach name attached) flag (isShortName (String.ofList name)) attached
  | joined {letter : Char} {flag : Flag} {text : List Char}
      (short : Flag.ofName? (String.ofList ['-', letter]) = some flag) (present : text ≠ [])
      (apart : text.head? ≠ some '=') : Spelled ('-' :: letter :: text) flag true (some text)

theorem Spelled.classify {text : List Char} {flag : Flag} {isShort : Bool}
    {attached : Option (List Char)} (spelled : Spelled text flag isShort attached) :
    classify (String.ofList text) = .ok (.flag flag isShort attached) := by
  cases spelled with
  | named means attached => exact means.classify attached
  | joined short present apart => exact classify_joined short present apart

theorem spelled_of_exactFlag? {text : List Char} {role : Role}
    (exact : exactFlag? text = some role) : BeginsFlag text ∧
      ∃ flag isShort attached, role = .flag flag isShort attached ∧
        Spelled text flag isShort attached := by
  obtain ⟨name, attached, plain, rfl⟩ := exists_attach text
  rw [exactFlag?_attach plain] at exact
  obtain ⟨flag, known, rfl⟩ := Option.map_eq_some_iff.mp exact
  exact ⟨beginsFlag_of_ofName? known attached, flag, _, attached, rfl,
    .named (means_of_ofName? known) attached⟩

theorem ofName?_of_mem_table : ∀ entry ∈ Flag.table, Flag.ofName? entry.1 = some entry.2 := by
  decide

theorem take_of_long {name : List Char} {attached : Option (List Char)}
    (long : (attach name attached).take 2 = ['-', '-']) : name.take 2 = ['-', '-'] := by
  match name with
  | [] => cases attached <;> simp [attach] at long
  | [_] => cases attached <;> simp [attach] at long
  | _ :: _ :: rest => rwa [take_attach (Nat.le_add_left 2 rest.length)] at long

theorem spelled_of_abbreviated_long {text : List Char} {full : String} {role : Role}
    (long : text.take 2 = ['-', '-']) (unknown : exactFlag? text = none)
    (only : abbreviated text = [(full, role)]) :
    ∃ flag attached, role = .flag flag false attached ∧ Spelled text flag false attached := by
  obtain ⟨name, attached, plain, rfl⟩ := exists_attach text
  rw [exactFlag?_attach plain, Option.map_eq_none_iff] at unknown
  rw [abbreviated_of_long plain long] at only
  obtain ⟨entry, entries, same⟩ := List.map_eq_singleton_iff.mp only
  obtain ⟨_, rfl⟩ := Prod.mk.inj same
  have dashes := take_of_long long
  have enough : 2 ≤ name.length := by
    have length := congrArg List.length dashes
    rw [List.length_take, List.length_cons, List.length_singleton] at length
    omega
  have dash : name.take 1 = ['-'] := by
    have front := congrArg (List.take 1) dashes
    rwa [List.take_take] at front
  have means : Means name entry.2 :=
    ⟨⟨dash, enough⟩, plain, Or.inr ⟨unknown, dashes, congrArg (List.map (·.2)) entries⟩⟩
  have spelled := Spelled.named means attached
  rw [show isShortName (String.ofList name) = false by simp [isShortName, dashes]] at spelled
  exact ⟨entry.2, attached, rfl, spelled⟩

theorem spelled_of_abbreviated_short {first letter : Char} {rest : List Char} {full : String}
    {role : Role} (short : (first :: letter :: rest).take 2 ≠ ['-', '-'])
    (unknown : exactFlag? (first :: letter :: rest) = none)
    (only : abbreviated (first :: letter :: rest) = [(full, role)]) :
    ∃ flag, role = .flag flag true (some rest) ∧
      Spelled (first :: letter :: rest) flag true (some rest) := by
  rw [abbreviated, if_neg short] at only
  have member : (full, role) ∈ [(full, role)] := List.mem_singleton_self _
  rw [← only] at member
  obtain ⟨⟨name, flag⟩, listed, made⟩ := List.mem_filterMap.mp member
  obtain ⟨named, same⟩ := Option.ite_none_right_eq_some.mp made
  obtain ⟨_, rfl⟩ := Prod.mk.inj (Option.some.inj same)
  have front : name = String.ofList [first, letter] := by
    rw [← String.toList_inj, String.toList_ofList]
    exact named
  obtain rfl : first = '-' := by
    have dash := (shape_of_mem_table _ listed).1
    rw [front, String.toList_ofList] at dash
    simpa using dash
  have known := ofName?_of_mem_table _ listed
  rw [front] at known
  have plain := (means_of_ofName? known).plain
  refine ⟨flag, rfl, .joined known ?_ ?_⟩
  · rintro rfl
    have exact := exactFlag?_attach plain none
    rw [attach, unknown, known] at exact
    cases exact
  · intro head
    obtain ⟨more, rfl⟩ := List.head?_eq_some_iff.mp head
    have exact := exactFlag?_attach plain (some more)
    rw [attach, known] at exact
    rw [List.cons_append, List.singleton_append, unknown] at exact
    cases exact

theorem spelled_of_abbreviated {text : List Char} {full : String} {role : Role}
    (unknown : exactFlag? text = none) (dashed : text.take 1 = ['-'] ∧ text.length ≠ 1)
    (only : abbreviated text = [(full, role)]) :
    ∃ flag isShort attached, role = .flag flag isShort attached ∧
      Spelled text flag isShort attached := by
  by_cases long : text.take 2 = ['-', '-']
  · obtain ⟨flag, attached, role, spelled⟩ := spelled_of_abbreviated_long long unknown only
    exact ⟨flag, false, attached, role, spelled⟩
  · match text, dashed with
    | [], dashed => exact absurd dashed.1 (by decide)
    | [_], dashed => exact absurd rfl dashed.2
    | first :: letter :: rest, _ =>
      obtain ⟨flag, role, spelled⟩ := spelled_of_abbreviated_short long unknown only
      exact ⟨flag, true, some rest, role, spelled⟩

inductive Classified (text : List Char) : Except UsageFault Role → Prop where
  | operand (proper : ¬Mistaken text) : Classified text (.ok .operand)
  | flag {flag : Flag} {isShort : Bool} {attached : Option (List Char)} (mistaken : Mistaken text)
      (spelled : Spelled text flag isShort attached) :
      Classified text (.ok (.flag flag isShort attached))
  | unknownFlag (mistaken : Mistaken text) : Classified text (.ok .unknownFlag)
  | ambiguous (mistaken : Mistaken text) (candidates : List String) :
      Classified text (.error (.ambiguous (String.ofList text) candidates))

theorem classified (text : List Char) : Classified text (classify (String.ofList text)) := by
  rw [classify, String.toList_ofList]
  by_cases dashed : text.take 1 = ['-'] ∧ text.length ≠ 1
  · have shape : ¬(decide (text.take 1 ≠ ['-']) || decide (text.length = 1)) = true := by
      simp [dashed.1, dashed.2]
    rw [if_neg shape]
    have begins : abbreviated text ≠ [] → Mistaken text := by
      rw [ne_eq, abbreviated_eq_nil_iff, not_not]
      exact fun begins => ⟨dashed, Or.inl begins⟩
    cases exact : exactFlag? text with
    | some role =>
      obtain ⟨begins, flag, isShort, attached, rfl, spelled⟩ := spelled_of_exactFlag? exact
      exact .flag ⟨dashed, Or.inl begins⟩ spelled
    | none =>
      match candidates : abbreviated text with
      | [] =>
        have other := (abbreviated_eq_nil_iff text).mp candidates
        by_cases value : (isNegativeNumber text || text.contains ' ') = true
        · simp only [if_pos value]
          refine .operand fun mistaken => ?_
          obtain ⟨number, space⟩ := mistaken.2.resolve_left other
          simp [number, space] at value
        · simp only [if_neg value]
          exact .unknownFlag ⟨dashed, Or.inr (by simpa using value)⟩
      | [(full, role)] =>
        obtain ⟨flag, isShort, attached, rfl, spelled⟩ :=
          spelled_of_abbreviated exact dashed candidates
        exact .flag (begins (by rw [candidates]; nofun)) spelled
      | first :: second :: others =>
        exact .ambiguous (begins (by rw [candidates]; nofun)) _
  · have shape : (decide (text.take 1 ≠ ['-']) || decide (text.length = 1)) = true := by
      rw [not_and_or, not_not] at dashed
      simpa using dashed
    rw [if_pos shape]
    exact .operand fun mistaken => dashed mistaken.1

theorem classify_eq_operand_iff (text : List Char) :
    classify (String.ofList text) = .ok .operand ↔ ¬Mistaken text := by
  have role := classified text
  constructor
  · intro operand
    rw [operand] at role
    cases role with
    | operand proper => exact proper
  · intro proper
    cases same : classify (String.ofList text) with
    | error fault =>
      rw [same] at role
      cases role with
      | ambiguous mistaken candidates => exact absurd mistaken proper
    | ok given =>
      rw [same] at role
      cases role with
      | operand proper => rfl
      | flag mistaken spelled => exact absurd mistaken proper
      | unknownFlag mistaken => exact absurd mistaken proper

theorem classify_operand {value : List Char} (unsigned : value.head? ≠ some '-') :
    classify (String.ofList value) = .ok .operand := by
  refine (classify_eq_operand_iff value).mpr fun mistaken => unsigned ?_
  have head := congrArg List.head? mistaken.1.1
  rwa [List.head?_take] at head

theorem classify_eq_flag_iff {text : List Char} {flag : Flag} {isShort : Bool}
    {attached : Option (List Char)} :
    classify (String.ofList text) = .ok (.flag flag isShort attached) ↔
      Spelled text flag isShort attached := by
  constructor
  · intro same
    have role := classified text
    rw [same] at role
    cases role with
    | flag mistaken spelled => exact spelled
  · exact Spelled.classify

end Reckoner.CommandLine
