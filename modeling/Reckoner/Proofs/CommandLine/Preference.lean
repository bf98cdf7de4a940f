import Mathlib.Data.List.DropRight
import Reckoner.Proofs.CommandLine.Classification

/-!
Preferences about output and evaluation on the command line. Each is a flag with a valid value, in
any spelling: under its full name or cut short, with the value behind it, behind an equals sign, or
joined to a short name. In front of further arguments they only change the request that those make.
-/
namespace Reckoner.CommandLine

/-! What the values of flags look like. -/

theorem mem_dropWhile {drops : Char → Bool} {text : List Char} {c : Char} (member : c ∈ text)
    (kept : drops c = false) : c ∈ text.dropWhile drops := by
  rw [← List.takeWhile_append_dropWhile (p := drops) (l := text)] at member
  rcases List.mem_append.mp member with dropped | left
  · have drop := List.all_eq_true.mp List.all_takeWhile c dropped
    rw [kept] at drop
    cases drop
  · exact left

theorem mem_trimBoth {drops : Char → Bool} {text : List Char} {c : Char} (member : c ∈ text)
    (kept : drops c = false) : c ∈ Text.trimBoth drops text := by
  have front := mem_dropWhile member kept
  exact List.mem_reverse.mpr (mem_dropWhile (List.mem_reverse.mpr front) kept)

theorem exists_trimBoth_cons (drops : Char → Bool) {c : Char} (rest : List Char)
    (kept : drops c = false) : ∃ rest', Text.trimBoth drops (c :: rest) = c :: rest' := by
  have front : (c :: rest).dropWhile drops = c :: rest := by
    rw [List.dropWhile_cons_of_neg (by rw [kept]; exact Bool.false_ne_true)]
  have start : Text.trimBoth drops (c :: rest) <+: c :: rest := by
    rw [Text.trimBoth, front]
    exact List.rdropWhile_prefix drops (c :: rest)
  have member : c ∈ Text.trimBoth drops (c :: rest) := mem_trimBoth List.mem_cons_self kept
  cases text : Text.trimBoth drops (c :: rest) with
  | nil =>
    rw [text] at member
    cases member
  | cons d rest' =>
    rw [text, List.cons_prefix_cons] at start
    exact ⟨rest', by rw [start.1]⟩

theorem whole_minus {rest : List Char} {number : Int}
    (read : Numeral.whole ('-' :: rest) = .ok number) : number ≤ 0 := by
  obtain ⟨rest', trimmed⟩ := exists_trimBoth_cons Numeral.isMargin rest
    (show Numeral.isMargin '-' = false by decide)
  have minus : Numeral.plainDigit '-' = '-' := by decide
  rw [Numeral.whole, trimmed, List.map_cons, minus] at read
  simp only [Numeral.takeSign] at read
  split at read
  next => cases read
  next digits _ =>
    split at read
    · cases read
    · split at read
      · cases read
      · obtain rfl := Except.ok.inj read
        simp

theorem mem_takeSign {text : List Char} {c : Char} (member : c ∈ text) (minus : c ≠ '-')
    (plus : c ≠ '+') : c ∈ (Numeral.takeSign text).2 := by
  rw [Numeral.takeSign.eq_def]
  split
  · exact (List.mem_cons.mp member).resolve_left minus
  · exact (List.mem_cons.mp member).resolve_left plus
  · exact member

theorem not_mem_of_whole {text : List Char} {number : Int} (read : Numeral.whole text = .ok number)
    {c : Char} (solid : Numeral.isMargin c = false) (plain : Numeral.plainDigit c = c)
    (foreign : c.isDigit = false) (other : c ∉ ['-', '+', '_']) : c ∉ text := by
  intro member
  simp only [List.mem_cons, List.not_mem_nil, or_false, not_or] at other
  have inside : c ∈ (Text.trimBoth Numeral.isMargin text).map Numeral.plainDigit :=
    List.mem_map.mpr ⟨c, mem_trimBoth member solid, plain⟩
  have body := mem_takeSign inside other.1 other.2.1
  rw [Numeral.whole] at read
  generalize Numeral.takeSign ((Text.trimBoth Numeral.isMargin text).map Numeral.plainDigit) =
    parts at body read
  have behind : ¬(parts.2.dropWhile fun c => c.isDigit || c = '_').isEmpty = true := by
    rw [List.isEmpty_iff]
    exact List.ne_nil_of_mem (mem_dropWhile body (by simp [foreign, other.2.2]))
  simp only [behind] at read
  split at read
  · cases read
  · split at read
    · cases read
    · simp at read

/-! Preferences. -/

/-- The spellings of a flag's names. A long name may be cut short while a letter is left. -/
def spellings (flag : Flag) : List (List Char) :=
  flag.names.flatMap fun name =>
    if isShortName name then [name.toList] else name.toList.inits.drop 3

inductive Preference where
  | format (format : OutputFormat)
  | precision (digits : Int)
  | maxDepth (limit : Int)

namespace Preference

def flag : Preference → Flag
  | format _ => .format
  | precision _ => .precision
  | maxDepth _ => .maxDepth

def ReadFrom (value : String) : Preference → Prop
  | format chosen => value = chosen.name
  | precision number | maxDepth number => Numeral.whole value.toList = .ok number ∧ 1 ≤ number

def set (request : Request) : Preference → Request
  | format chosen => { request with format := chosen }
  | precision digits => { request with precision := some (some digits) }
  | maxDepth limit => { request with maxDepth := some (some limit) }

/-- The ways to write a preference. -/
inductive Written (preference : Preference) : List String → Prop where
  | apart {name : List Char} {value : String} (named : name ∈ spellings preference.flag)
      (read : preference.ReadFrom value) : Written preference [String.ofList name, value]
  | equals {name : List Char} {value : String} (named : name ∈ spellings preference.flag)
      (read : preference.ReadFrom value) :
      Written preference [String.ofList name ++ "=" ++ value]
  | joined {value : String} (short : preference.flag = .precision)
      (read : preference.ReadFrom value) : Written preference ["-p" ++ value]

/-! What a preference does to a request. -/

theorem means_of_mem {preference : Preference} {name : List Char}
    (named : name ∈ spellings preference.flag) : Means name preference.flag := by
  have all : [Flag.format, .precision, .maxDepth].all (fun flag =>
      (spellings flag).all fun name => Means name flag) = true := by decide
  have listed : preference.flag ∈ [Flag.format, .precision, .maxDepth] := by
    cases preference <;> simp [flag]
  have every := List.all_eq_true.mp (List.all_eq_true.mp all preference.flag listed) name named
  exact of_decide_eq_true every

theorem head?_ne_of_readFrom {preference : Preference} {value : String}
    (read : preference.ReadFrom value) : value.toList.head? ≠ some '-' := by
  have positive {number : Int} (read : Numeral.whole value.toList = .ok number)
      (least : 1 ≤ number) : value.toList.head? ≠ some '-' := by
    intro head
    obtain ⟨rest, text⟩ := List.head?_eq_some_iff.mp head
    rw [text] at read
    exact absurd (whole_minus read) (by omega)
  cases preference with
  | format chosen =>
    rw [show value = chosen.name from read]
    cases chosen <;> decide
  | precision digits => exact positive read.1 read.2
  | maxDepth limit => exact positive read.1 read.2

theorem ne_mark_of_readFrom {preference : Preference} {value : String}
    (read : preference.ReadFrom value) : value ≠ "--" := by
  rintro rfl
  exact head?_ne_of_readFrom read rfl

theorem apply_of_readFrom {preference : Preference} {value : String}
    (read : preference.ReadFrom value) (request : Request) :
    preference.flag.apply value request = .ok (preference.set request) := by
  have marked := ne_mark_of_readFrom read
  have positive {flag : Flag} {number : Int} (read : Numeral.whole value.toList = .ok number)
      (least : 1 ≤ number) : flag.positive value = .ok number := by
    rw [Flag.positive, read]
    exact if_neg (by omega)
  cases preference with
  | format chosen =>
    rw [show value = chosen.name from read]
    cases chosen <;> rfl
  | precision digits =>
    rw [flag, Flag.apply, Flag.read, if_neg marked, positive read.1 read.2]
    rfl
  | maxDepth limit =>
    rw [flag, Flag.apply, Flag.read, if_neg marked, positive read.1 read.2]
    rfl

theorem takesValue_flag (preference : Preference) : preference.flag.takesValue = true := by
  cases preference <;> rfl

end Preference

inductive Preferences : List Preference → List String → Prop where
  | nil : Preferences [] []
  | cons {preference : Preference} {others : List Preference} {first rest : List String}
      (written : preference.Written first) (further : Preferences others rest) :
      Preferences (preference :: others) (first ++ rest)

/-! Flags with a value among further arguments. -/

section Gather

variable {flag : Flag} {request request' : Request}

theorem readFlag_attached (valued : flag.takesValue = true) (isShort : Bool) (value : List Char) :
    readFlag flag isShort (some value) = .ok ⟨[(flag, String.ofList value)], none⟩ := by
  have whole : readWithValue flag value = .ok ⟨[(flag, String.ofList value)], none⟩ := by
    rw [readWithValue, if_pos valued]
  cases isShort with
  | false => exact whole
  | true =>
    cases value with
    | nil => exact whole
    | cons first rest =>
      have last : next? flag first = none := by rw [next?, if_pos valued]
      simp only [readFlag, ↓reduceIte, readJoined, last]
      exact whole

theorem applyAll_singleton {value : String} (applied : flag.apply value request = .ok request') :
    applyAll request [(flag, value)] = .ok request' := by
  rw [applyAll, applied]
  rfl

theorem gather_attached (valued : flag.takesValue = true) (isShort : Bool) {value : List Char}
    (applied : flag.apply (String.ofList value) request = .ok request') (argument : String)
    (leftover : List String) (rest : List (String × Option Role)) :
    gather request leftover ((argument, some (.flag flag isShort (some value))) :: rest) =
      gather request' leftover rest := by
  rw [gather, readFlag_attached valued]
  change (applyAll request [(flag, String.ofList value)] >>= fun request =>
    gather request leftover rest) = _
  rw [applyAll_singleton applied]
  rfl

theorem gather_apart (valued : flag.takesValue = true) (isShort : Bool) {value : String}
    (applied : flag.apply value request = .ok request') (argument : String)
    (leftover : List String) (rest : List (String × Option Role)) :
    gather request leftover
        ((argument, some (.flag flag isShort none)) :: (value, some .operand) :: rest) =
      gather request' leftover rest := by
  have alone : readFlag flag isShort none = .ok ⟨[], some flag⟩ := by
    rw [readFlag, readAlone, if_pos valued]
  rw [gather, alone]
  change (applyAll request [(flag, value)] >>= fun request => gather request leftover rest) = _
  rw [applyAll_singleton applied]
  rfl

end Gather

/-- Arguments that others can follow and that only change the request which those start from. -/
def Changes (arguments : List String) (change : Request → Request) : Prop :=
  ∃ roles, (∀ rest, classifyAll (arguments ++ rest) = (classifyAll rest).map (roles ++ ·)) ∧
    ∀ request leftover rest,
      gather request leftover (roles ++ rest) = gather (change request) leftover rest

namespace Changes

variable {arguments others : List String} {change change' : Request → Request}

theorem nil : Changes [] id := by
  refine ⟨[], fun rest => ?_, fun _ _ _ => rfl⟩
  rw [List.nil_append]
  cases classifyAll rest <;> rfl

theorem append (changes : Changes arguments change) (changes' : Changes others change') :
    Changes (arguments ++ others) (change' ∘ change) := by
  obtain ⟨roles, classified, gathered⟩ := changes
  obtain ⟨roles', classified', gathered'⟩ := changes'
  refine ⟨roles ++ roles', fun rest => ?_, fun request leftover rest => ?_⟩
  · rw [List.append_assoc, classified, classified']
    cases classifyAll rest with
    | error => rfl
    | ok more => simp [Except.map]
  · rw [List.append_assoc, gathered, gathered']
    rfl

theorem parse_eq (changes : Changes arguments change) : parse arguments = .ok (change {}) := by
  obtain ⟨roles, classified, gathered⟩ := changes
  have all : classifyAll arguments = .ok roles := by
    have all := classified []
    rw [List.append_nil] at all
    rw [all]
    exact congrArg Except.ok (List.append_nil roles)
  have request : gather {} [] roles = .ok (change {}, []) := by
    have request := gathered {} [] []
    rwa [List.append_nil] at request
  rw [parse, all]
  change ((gather {} [] roles).bind _) = _
  rw [request]
  rfl

end Changes

theorem classifyAll_cons {argument : String} (unmarked : argument ≠ "--") {role : Role}
    (known : classify argument = .ok role) (rest : List String) :
    classifyAll (argument :: rest) = (classifyAll rest).map ([(argument, some role)] ++ ·) := by
  rw [classifyAll.eq_3 _ _ (fun same => unmarked same), known]
  cases classifyAll rest <;> rfl

theorem changes_attached {name : List Char} {flag : Flag} (means : Means name flag)
    (valued : flag.takesValue = true) {value : String} {change : Request → Request}
    (applied : ∀ request, flag.apply value request = .ok (change request)) :
    Changes [String.ofList name ++ "=" ++ value] change := by
  have text : String.ofList name ++ "=" ++ value =
      String.ofList (attach name (some value.toList)) := by
    apply String.ext
    simp [attach]
  have unmarked : String.ofList (attach name (some value.toList)) ≠ "--" := by
    intro same
    have equals := congrArg (fun text => text.toList.contains '=') same
    simp [attach] at equals
  have applied' (request : Request) :
      flag.apply (String.ofList value.toList) request = .ok (change request) := by
    rw [String.ofList_toList, applied]
  rw [text]
  exact ⟨_, classifyAll_cons unmarked (means.classify (some value.toList)),
    fun request leftover rest => gather_attached valued _ (applied' request) _ leftover rest⟩

theorem changes_apart {name : List Char} {flag : Flag} (means : Means name flag)
    (valued : flag.takesValue = true) {value : String} (operand : classify value = .ok .operand)
    {change : Request → Request}
    (applied : ∀ request, flag.apply value request = .ok (change request)) :
    Changes [String.ofList name, value] change := by
  have unmarked : String.ofList name ≠ "--" := by
    intro same
    apply means.ne_mark
    rw [← String.toList_ofList (l := name), same]
    rfl
  have unmarked' : value ≠ "--" := by
    rintro rfl
    cases operand
  refine ⟨[(String.ofList name, some (.flag flag (isShortName (String.ofList name)) none)),
    (value, some .operand)], fun rest => ?_,
    fun request leftover rest => gather_apart valued _ (applied request) _ leftover rest⟩
  rw [List.cons_append, classifyAll_cons unmarked (means.classify none), List.cons_append,
    classifyAll_cons unmarked' operand, List.nil_append]
  cases classifyAll rest <;> rfl

theorem changes_joined {value : String} (present : value.toList ≠ []) (plain : '=' ∉ value.toList)
    {change : Request → Request}
    (applied : ∀ request, Flag.precision.apply value request = .ok (change request)) :
    Changes ["-p" ++ value] change := by
  have text : "-p" ++ value = String.ofList ('-' :: 'p' :: value.toList) := by
    apply String.ext
    simp
  have unmarked : String.ofList ('-' :: 'p' :: value.toList) ≠ "--" := by
    intro same
    have second := congrArg (fun text => text.toList[1]?) same
    simp at second
  have applied' (request : Request) :
      Flag.precision.apply (String.ofList value.toList) request = .ok (change request) := by
    rw [String.ofList_toList, applied]
  rw [text]
  have apart : value.toList.head? ≠ some '=' := fun head => plain (List.mem_of_mem_head? head)
  exact ⟨_, classifyAll_cons unmarked (classify_joined rfl present apart),
    fun request leftover rest => gather_attached rfl _ (applied' request) _ leftover rest⟩

theorem Preference.Written.changes {preference : Preference} {arguments : List String}
    (written : preference.Written arguments) : Changes arguments preference.set := by
  cases written with
  | apart named read =>
    have operand := classify_operand (head?_ne_of_readFrom read)
    rw [String.ofList_toList] at operand
    exact changes_apart (means_of_mem named) (takesValue_flag preference) operand
      (apply_of_readFrom read)
  | equals named read =>
    exact changes_attached (means_of_mem named) (takesValue_flag preference)
      (apply_of_readFrom read)
  | @joined value short read =>
    have applied := apply_of_readFrom read
    rw [short] at applied
    obtain ⟨digits, rfl⟩ : ∃ digits, preference = .precision digits := by
      cases preference with
      | precision digits => exact ⟨digits, rfl⟩
      | format chosen => cases short
      | maxDepth limit => cases short
    have plain : '=' ∉ value.toList :=
      not_mem_of_whole read.1 (by decide) (by decide) (by decide) (by decide)
    have present : value.toList ≠ [] := by
      intro empty
      have read := read.1
      rw [empty] at read
      cases read
    exact changes_joined present plain applied

def Preference.setAll (preferences : List Preference) (request : Request) : Request :=
  preferences.foldl set request

theorem Preferences.changes {preferences : List Preference} {arguments : List String}
    (given : Preferences preferences arguments) :
    Changes arguments (Preference.setAll preferences) := by
  induction given with
  | nil => exact Changes.nil
  | cons written _ further => exact written.changes.append further

end Reckoner.CommandLine
