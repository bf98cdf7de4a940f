import Reckoner.CommandLine.Flag

/-!
Reading the arguments. First each argument is classified by its own text: as a flag with or without
text attached, as a flag that nobody knows, or as an operand. Then flags take their values from left
to right, and the flags of one argument act before the next one is looked at, so that help asked for
early hides later faults. What is left over is reported at the end.
-/
namespace Reckoner.CommandLine

/-- What an argument is, by its own text. A flag may have more text attached to its name. -/
inductive Role where
  | operand
  | flag (flag : Flag) (isShort : Bool) (attached : Option (List Char))
  | unknownFlag
  deriving DecidableEq, Repr

/-- Numbers with a minus sign are operands. A line break may follow. -/
def isNegativeNumber (text : List Char) : Bool :=
  let isDigit := fun c => (Text.digitValue? c).isSome
  let body := if text.getLast? = some '\n' then text.dropLast else text
  match body with
  | '-' :: number =>
    match number.dropWhile isDigit with
    | [] => !number.isEmpty
    | c :: fraction => c = '.' && !fraction.isEmpty && fraction.all isDigit
  | _ => false

def isShortName (name : String) : Bool := name.toList.take 2 ≠ ['-', '-']

def splitEquals (text : List Char) : List Char × Option (List Char) :=
  match text.dropWhile (· ≠ '=') with
  | [] => (text, none)
  | _ :: attached => (text.takeWhile (· ≠ '='), some attached)

/-- The flags that an argument may abbreviate. A long name may be cut short; a short one may be
followed directly by more text. -/
def abbreviated (text : List Char) : List (String × Role) :=
  if text.take 2 = ['-', '-'] then
    let (start, attached) := splitEquals text
    Flag.table.filterMap fun (name, flag) =>
      if start.isPrefixOf name.toList then some (name, .flag flag false attached) else none
  else
    Flag.table.filterMap fun (name, flag) =>
      if name.toList = text.take 2 then some (name, .flag flag true (some (text.drop 2))) else none

def exactFlag? (text : List Char) : Option Role :=
  match Flag.ofName? (String.ofList text) with
  | some flag => some (.flag flag (isShortName (String.ofList text)) none)
  | none =>
    match splitEquals text with
    | (name, some attached) => (Flag.ofName? (String.ofList name)).map fun flag =>
        .flag flag (isShortName (String.ofList name)) (some attached)
    | (_, none) => none

/-- The role of an argument before any `--`. -/
def classify (argument : String) : Except UsageFault Role :=
  let text := argument.toList
  if text.take 1 ≠ ['-'] || text.length = 1 then .ok .operand
  else
    match exactFlag? text with
    | some role => .ok role
    | none =>
      match abbreviated text with
      | [(_, role)] => .ok role
      | [] =>
        if isNegativeNumber text || text.contains ' ' then .ok .operand else .ok .unknownFlag
      | candidates => .error (.ambiguous argument (candidates.map (·.1)))

/-- The roles of all arguments. Everything behind a `--` is an operand; the `--` itself is neither
flag nor operand and serves as the value of no flag. -/
def classifyAll : List String → Except UsageFault (List (String × Option Role))
  | [] => .ok []
  | "--" :: rest => .ok (("--", none) :: rest.map (·, some .operand))
  | argument :: rest => do
    let role ← classify argument
    return (argument, some role) :: (← classifyAll rest)

structure Reading where
  actions : List (Flag × String)
  /-- A last flag that still waits for the next argument as its value. -/
  waiting : Option Flag
  deriving DecidableEq, Repr

def readAlone (flag : Flag) : Reading :=
  if flag.takesValue then ⟨[], some flag⟩ else ⟨[(flag, "")], none⟩

def readWithValue (flag : Flag) (value : List Char) : Except UsageFault Reading :=
  if flag.takesValue then .ok ⟨[(flag, String.ofList value)], none⟩
  else .error (.ignoredValue flag (String.ofList value))

def Reading.behind (flag : Flag) (reading : Reading) : Reading :=
  { reading with actions := (flag, "") :: reading.actions }

/-- The short flag that text attached to another flag begins with. Nothing follows a flag that takes
a value, since there the text is that value. -/
def next? (flag : Flag) (first : Char) : Option Flag :=
  if flag.takesValue then none else Flag.ofName? (String.ofList ['-', first])

/-- A short flag with text attached to it. The text is the flag's value, or else begins with the
letter of another short flag, which the rest of the text is attached to. -/
def readJoined : Flag → (attached : List Char) → Except UsageFault Reading
  | flag, [] => readWithValue flag []
  | flag, first :: rest =>
    match next? flag first with
    | none => readWithValue flag (first :: rest)
    | some next =>
      (if rest.isEmpty then .ok (readAlone next) else readJoined next rest).map
        (Reading.behind flag)

def readFlag (flag : Flag) (isShort : Bool) : Option (List Char) → Except UsageFault Reading
  | none => .ok (readAlone flag)
  | some attached => if isShort then readJoined flag attached else readWithValue flag attached

def applyAll (request : Request) : List (Flag × String) → Except Halt Request
  | [] => .ok request
  | (flag, value) :: rest => do applyAll (← flag.apply value request) rest

def gather (request : Request) (leftover : List String) :
    List (String × Option Role) → Except Halt (Request × List String)
  | [] => .ok (request, leftover)
  | (_, some (.flag flag isShort attached)) :: rest => do
    let reading ← (readFlag flag isShort attached).mapError .fault
    match reading.waiting with
    | none => gather (← applyAll request reading.actions) leftover rest
    | some waiting =>
      match rest with
      | (value, some .operand) :: rest =>
        gather (← applyAll request (reading.actions ++ [(waiting, value)])) leftover rest
      | _ => .error (.fault (.missingValue waiting))
  | (argument, _) :: rest => gather request (leftover ++ [argument]) rest

def parse (arguments : List String) : Except Halt Request := do
  let roles ← (classifyAll arguments).mapError .fault
  let (request, leftover) ← gather {} [] roles
  if leftover.isEmpty then return request else .error (.fault (.unrecognized leftover))

end Reckoner.CommandLine
