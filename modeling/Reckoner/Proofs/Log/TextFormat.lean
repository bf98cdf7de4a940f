import Reckoner.Log.Timestamp
import Reckoner.Proofs.Batch.Conservation
import Reckoner.Proofs.Grammar.Trace
import Reckoner.Proofs.Grammar.Wording
import Reckoner.Proofs.Log.Routing

/-!
Evaluations in a log of the text format. Each record is one line that begins with its own time and
level, with one exception: where an evaluation stops at a line break, the message names it as it
is, and an empty line comes behind the line of the record.
-/
namespace Reckoner.Log

open Answer (weightOf failureEvent batchEvent)
open Text (newline_not_mem_append newline_not_mem_repr newline_not_mem_quoted)

/-! Time stamps. -/

def Timestamp.IsStamp (time : String) : Prop := ∃ count, Timestamp.ofMilliseconds count = .ok time

theorem Timestamp.IsStamp.newline_not_mem {time : String} (stamp : Timestamp.IsStamp time) :
    '\n' ∉ time.toList := by
  obtain ⟨count, made⟩ := stamp
  have digits : ∀ width number, '\n' ∉ Text.decimal width number := by
    intro width number member
    cases Numeral.isDigit_of_mem_decimal member
  unfold Timestamp.ofMilliseconds at made
  extract_lets date clock at made
  split at made
  · rw [← Except.ok.inj made, String.toList_ofList]
    simp [digits]
  · split at made <;> cases made

/-! Records of evaluations. -/

def stopsAtBreak (bounds : Bounds) (expression : String) : Bool :=
  match (Evaluator.evaluate bounds (.text expression) none).result with
  | .ok _ => false
  | .error fault => fault.cause = .unexpected (some '\n')

def Record.breaks (record : Record) : Nat := record.message.toList.count '\n'

theorem Record.breaks_eq_zero {record : Record} (single : '\n' ∉ record.message.toList) :
    record.breaks = 0 := List.count_eq_zero.mpr single

def Event.breaks (event : Event) : Nat := event.record.toOption.elim 0 Record.breaks

def failureRecord (expression : String) (fault : Fault) : Record :=
  ⟨.debug, "hitung.api", "Evaluation of " ++ Text.quoted expression ++ " failed [" ++ fault.code ++
    "]: " ++ fault.message, none⟩

inductive Reports : Record → Prop
  | name (name : String) (position : Nat) :
      Reports ⟨.debug, "hitung.parser", "Unknown function " ++ Text.quoted name ++
        " at position " ++ toString position ++ " returns its argument", none⟩
  | failure (expression : String) {fault : Fault}
      (plain : fault.cause ≠ .unexpected (some '\n') → '\n' ∉ fault.message.toList) :
      Reports (failureRecord expression fault)
  | summary (total failures : Nat) :
      Reports ⟨.info, "hitung.api", "Batch of " ++ toString total ++
        " expressions finished with " ++ toString failures ++ " failures", none⟩

theorem newline_not_mem_name (name : String) (position : Nat) :
    '\n' ∉ ("Unknown function " ++ Text.quoted name ++ " at position " ++ toString position ++
      " returns its argument").toList :=
  newline_not_mem_append (newline_not_mem_append (newline_not_mem_append
    (newline_not_mem_append (by decide) (newline_not_mem_quoted name)) (by decide))
      (newline_not_mem_repr position)) (by decide)

theorem newline_not_mem_summary (total failures : Nat) :
    '\n' ∉ ("Batch of " ++ toString total ++ " expressions finished with " ++
      toString failures ++ " failures").toList :=
  newline_not_mem_append (newline_not_mem_append (newline_not_mem_append
    (newline_not_mem_append (by decide) (newline_not_mem_repr total)) (by decide))
      (newline_not_mem_repr failures)) (by decide)

theorem newline_not_mem_code (fault : Fault) : '\n' ∉ fault.code.toList := by
  rw [Fault.code]
  cases fault.cause <;> simp [Cause.code, Cause.kind, ErrorKind.defaultCode]

theorem newline_not_mem_failure (expression : String) (fault : Fault) :
    '\n' ∉ ("Evaluation of " ++ Text.quoted expression ++ " failed [" ++ fault.code ++
      "]: ").toList :=
  newline_not_mem_append (newline_not_mem_append (newline_not_mem_append
    (newline_not_mem_append (by decide) (newline_not_mem_quoted expression)) (by decide))
      (newline_not_mem_code fault)) (by decide)

theorem Reports.message_cases {record : Record} (reports : Reports record) :
    '\n' ∉ record.message.toList ∨ ∃ expression fault front,
      record = failureRecord expression fault ∧ fault.cause = .unexpected (some '\n') ∧
        '\n' ∉ front.toList ∧ record.message = front ++ "\n" := by
  cases reports with
  | name name position => exact Or.inl (newline_not_mem_name name position)
  | summary total failures => exact Or.inl (newline_not_mem_summary total failures)
  | @failure expression fault plain =>
    have front := newline_not_mem_failure expression fault
    by_cases stopped : fault.cause = .unexpected (some '\n')
    · refine Or.inr ⟨expression, fault, _, rfl, stopped,
        newline_not_mem_append front (show '\n' ∉ "Unexpected: ".toList by decide), ?_⟩
      have named : fault.message = "Unexpected: " ++ "\n" := by
        rw [Fault.message, stopped]
        rfl
      rw [String.append_assoc, ← named]
      rfl
    · exact Or.inl (newline_not_mem_append front (plain stopped))

theorem breaks_failureRecord (expression : String) {fault : Fault}
    (plain : fault.cause ≠ .unexpected (some '\n') → '\n' ∉ fault.message.toList) :
    (failureRecord expression fault).breaks =
      if fault.cause = .unexpected (some '\n') then 1 else 0 := by
  have message : (failureRecord expression fault).message = "Evaluation of " ++
      Text.quoted expression ++ " failed [" ++ fault.code ++ "]: " ++ fault.message := rfl
  have front := List.count_eq_zero.mpr (newline_not_mem_failure expression fault)
  rw [Record.breaks, message, String.toList_append, List.count_append, front, Nat.zero_add]
  split
  next stopped =>
    rw [Fault.message, stopped]
    rfl
  next other => exact List.count_eq_zero.mpr (plain other)

/-! Events of evaluations. -/

theorem Event.breaks_of_record {event : Event} {record : Record}
    (made : event.record = .ok record) : event.breaks = record.breaks := by
  rw [breaks, made]
  rfl

theorem Event.breaks_of_fault {event : Event} {fault : Template.Fault}
    (failed : event.record = .error fault) : event.breaks = 0 := by
  rw [breaks, failed]
  rfl

theorem reports_of_note {note : Note} {record : Record} (made : note.event.record = .ok record) :
    Reports record ∧ '\n' ∉ record.message.toList := by
  cases writable : Numeral.isWritable note.position with
  | false =>
    rw [Note.record_event_of_not_isWritable writable] at made
    cases made
  | true =>
    rw [Note.record_event writable] at made
    rw [← Except.ok.inj made]
    exact ⟨.name note.name note.position, newline_not_mem_name note.name note.position⟩

theorem reports_of_summary {total failures : Nat} (within : failures ≤ total) {record : Record}
    (made : (batchEvent total failures).record = .ok record) :
    Reports record ∧ '\n' ∉ record.message.toList := by
  cases writable : Numeral.isWritable total with
  | false =>
    rw [Answer.record_batchEvent_of_not_isWritable writable] at made
    cases made
  | true =>
    have fewer := Nat.lt_of_le_of_lt within ((Numeral.isWritable_iff total).mp writable)
    rw [Answer.record_batchEvent writable ((Numeral.isWritable_iff failures).mpr fewer)] at made
    rw [← Except.ok.inj made]
    exact ⟨.summary total failures, newline_not_mem_summary total failures⟩

theorem Event.breaks_eq_zero {event : Event}
    (single : ∀ record, event.record = .ok record → '\n' ∉ record.message.toList) :
    event.breaks = 0 := by
  cases made : event.record with
  | error fault => exact breaks_of_fault made
  | ok record => exact (breaks_of_record made).trans (Record.breaks_eq_zero (single record made))

section

variable {bounds : Bounds} {expression : String}

theorem reports_of_mem {event : Event}
    (member : event ∈ (Answer.evaluate bounds (.text expression)).events) {record : Record}
    (made : event.record = .ok record) : Reports record := by
  rcases List.mem_append.mp member with noted | failed
  · obtain ⟨note, _, rfl⟩ := List.mem_map.mp noted
    exact (reports_of_note made).1
  · split at failed
    next => cases failed
    next fault outcome =>
      rw [List.mem_singleton.mp failed, Answer.record_failureEvent fault rfl] at made
      rw [← Except.ok.inj made]
      exact .failure expression (Grammar.newline_not_mem_message_of_evaluate outcome)

theorem breaks_names (notes : List Note) :
    weightOf Event.breaks (notes.map Note.event) = 0 := by
  rw [weightOf, List.map_map]
  refine List.sum_eq_zero fun weight member => ?_
  obtain ⟨note, _, rfl⟩ := List.mem_map.mp member
  exact Event.breaks_eq_zero fun record made => (reports_of_note made).2

theorem breaks_evaluate : weightOf Event.breaks (Answer.evaluate bounds (.text expression)).events =
    if stopsAtBreak bounds expression then 1 else 0 := by
  cases outcome : (Evaluator.evaluate bounds (.text expression) none).result with
  | ok value =>
    simp only [Answer.evaluate, stopsAtBreak, outcome, Answer.weightOf_append, breaks_names]
    rfl
  | error fault =>
    have plain := Grammar.newline_not_mem_message_of_evaluate outcome
    have made : (failureEvent (.text expression) fault).record =
        .ok (failureRecord expression fault) := Answer.record_failureEvent fault rfl
    simp only [Answer.evaluate, stopsAtBreak, outcome, Answer.weightOf_append, breaks_names,
      Nat.zero_add, decide_eq_true_eq]
    rw [Answer.weightOf_singleton, Event.breaks_of_record made]
    exact breaks_failureRecord expression plain

/-- No text that is shorter has a place whose number could not be written. -/
theorem exists_record_of_mem (short : expression.length < 10 ^ Numeral.maxDigits) {event : Event}
    (member : event ∈ (Answer.evaluate bounds (.text expression)).events) :
    ∃ record, event.record = .ok record := by
  rcases List.mem_append.mp member with noted | failed
  · obtain ⟨note, among, rfl⟩ := List.mem_map.mp noted
    have place := Nat.lt_of_le_of_lt (Grammar.position_le_of_noted among) short
    exact ⟨_, Note.record_event ((Numeral.isWritable_iff note.position).mpr place)⟩
  · split at failed
    next => cases failed
    next fault outcome =>
      rw [List.mem_singleton.mp failed]
      exact ⟨_, Answer.record_failureEvent fault rfl⟩

end

/-! Calls. -/

/-- The events of evaluating expressions: those of a single one, or those of a batch under some
schedule of its workers. -/
inductive Evaluates (bounds : Bounds) : List String → List Event → Prop
  | single (expression : String) :
      Evaluates bounds [expression] (Answer.evaluate bounds (.text expression)).events
  | batch {expressions : List String} {poolSize : Int} {asked : Option Int} {schedule : List Nat}
      {pool : Answer.Pool} {answers : Logged (List Result)}
      (run : (Answer.Pool.ofValues (expressions.map .text)).follow bounds
        (Answer.crew poolSize (expressions.map .text) asked) schedule = some pool)
      (closed : pool.close? = some answers) : Evaluates bounds expressions answers.events

/-- A call that evaluates expressions, with the events it logs. -/
structure Call where
  bounds : Bounds
  expressions : List String
  events : List Event
  evaluates : Evaluates bounds expressions events

def Call.stops (call : Call) : Nat := call.expressions.countP (stopsAtBreak call.bounds)

/-- Expressions and their characters are so few that their numbers can be written. -/
structure WritableCounts (expressions : List String) : Prop where
  few : expressions.length < 10 ^ Numeral.maxDigits
  short : ∀ expression ∈ expressions, expression.length < 10 ^ Numeral.maxDigits

section

variable {bounds : Bounds} {expressions : List String} {events : List Event}

/-- What a call logs: the events of its expressions, and for a batch with failures a summary. -/
theorem Evaluates.cases_of_mem (evaluates : Evaluates bounds expressions events) {event : Event}
    (member : event ∈ events) :
    (∃ expression ∈ expressions,
        event ∈ (Answer.evaluate bounds (.text expression)).events) ∨
      ∃ failures ≤ expressions.length, event = batchEvent expressions.length failures := by
  cases evaluates with
  | single expression => exact Or.inl ⟨expression, List.mem_cons_self, member⟩
  | batch run closed =>
    obtain ⟨results, ended, rfl⟩ := Option.map_eq_some_iff.mp closed
    obtain ⟨follows, _⟩ := (Answer.Pool.follows_ofValues bounds _).follow run
    rcases List.mem_append.mp member with logged | summary
    · obtain ⟨⟨number, event'⟩, entry, rfl⟩ := List.mem_map.mp logged
      obtain ⟨value, given, own⟩ := follows.log entry
      obtain ⟨expression, among, rfl⟩ := List.mem_map.mp given
      exact Or.inl ⟨expression, among, own⟩
    · split at summary
      · cases summary
      · have length : results.length = expressions.length := by
          rw [(follows.results ended).1, List.length_map, List.length_map]
        refine Or.inr ⟨results.countP (!·.ok), length ▸ List.countP_le_length, ?_⟩
        rw [← length]
        exact List.mem_singleton.mp summary

theorem Evaluates.reports (evaluates : Evaluates bounds expressions events) {event : Event}
    (member : event ∈ events) {record : Record} (made : event.record = .ok record) :
    Reports record := by
  rcases evaluates.cases_of_mem member with ⟨expression, _, own⟩ | ⟨failures, within, rfl⟩
  · exact reports_of_mem own made
  · exact (reports_of_summary within made).1

theorem Evaluates.exists_record (evaluates : Evaluates bounds expressions events)
    (writable : WritableCounts expressions) {event : Event} (member : event ∈ events) :
    ∃ record, event.record = .ok record := by
  rcases evaluates.cases_of_mem member with ⟨expression, among, own⟩ | ⟨failures, within, rfl⟩
  · exact exists_record_of_mem (writable.short expression among) own
  · have fewer := Nat.lt_of_le_of_lt within writable.few
    exact ⟨_, Answer.record_batchEvent ((Numeral.isWritable_iff _).mpr writable.few)
      ((Numeral.isWritable_iff failures).mpr fewer)⟩

theorem countP_eq_sum {α : Type} (p : α → Bool) (items : List α) :
    items.countP p = (items.map fun item => if p item then 1 else 0).sum := by
  induction items with
  | nil => rfl
  | cons item rest ih => rw [List.countP_cons, List.map_cons, List.sum_cons, ih, Nat.add_comm]

theorem Evaluates.breaks (evaluates : Evaluates bounds expressions events) :
    weightOf Event.breaks events = expressions.countP (stopsAtBreak bounds) := by
  cases evaluates with
  | single expression => rw [breaks_evaluate, List.countP_singleton]
  | batch run closed =>
    obtain ⟨results, ended, rfl⟩ := Option.map_eq_some_iff.mp closed
    have summary : weightOf Event.breaks (if results.countP (!·.ok) = 0 then []
        else [batchEvent results.length (results.countP (!·.ok))]) = 0 := by
      split
      · rfl
      · exact Event.breaks_eq_zero fun record made =>
          (reports_of_summary List.countP_le_length made).2
    rw [Answer.weightOf_append, summary, Nat.add_zero, Answer.Pool.weightOf_log _ run ended,
      List.map_map, countP_eq_sum]
    exact congrArg List.sum (List.map_congr_left fun expression _ => breaks_evaluate)

end

/-! Lines. -/

def Record.front (time : String) (record : Record) : String :=
  time ++ " [" ++ record.level.name ++ "] "

/-- The lines of a record in the text format: a single one, which begins with the time and the level
of the record, or also an empty one, if the record reports a line break. -/
inductive Record.Takes (time : String) (record : Record) : List String → Prop
  | whole (rest : String) (text : record.textLine time = record.front time ++ rest) :
      Takes time record [record.front time ++ rest]
  | broken (expression : String) (fault : Fault) (rest : String)
      (report : record = failureRecord expression fault)
      (stopped : fault.cause = .unexpected (some '\n'))
      (text : record.textLine time = record.front time ++ rest ++ "\n") :
      Takes time record [record.front time ++ rest, ""]

section

variable {time : String} {record : Record}

theorem Reports.reaches (reports : Reports record) : record.level.reaches .debug = true := by
  cases reports <;> rfl

theorem Reports.textLine (reports : Reports record) (time : String) :
    '\n' ∉ record.source.toList ∧ record.textLine time =
      record.front time ++ (record.source ++ ": " ++ record.message) := by
  have parts : '\n' ∉ record.source.toList ∧ record.incident = none := by
    have sources : '\n' ∉ "hitung.parser".toList ∧ '\n' ∉ "hitung.api".toList := by decide
    cases reports with
    | name name position => exact ⟨sources.1, rfl⟩
    | failure expression _ => exact ⟨sources.2, rfl⟩
    | summary total failures => exact ⟨sources.2, rfl⟩
  refine ⟨parts.1, ?_⟩
  rw [Record.textLine, parts.2, Record.front, String.append_empty]
  simp only [String.append_assoc]

theorem Reports.newline_not_mem_front (reports : Reports record) (plain : '\n' ∉ time.toList) :
    '\n' ∉ (record.front time).toList := by
  have level : '\n' ∉ record.level.name.toList := by
    have names : '\n' ∉ Level.debug.name.toList ∧ '\n' ∉ Level.info.name.toList := by decide
    cases reports with
    | summary total failures => exact names.2
    | _ => exact names.1
  exact newline_not_mem_append
    (newline_not_mem_append (newline_not_mem_append plain (by decide)) level) (by decide)

theorem Reports.takes (reports : Reports record) (plain : '\n' ∉ time.toList) :
    ∃ lines, record.Takes time lines ∧ (∀ line ∈ lines, '\n' ∉ line.toList) ∧
      (record.textLine time ++ "\n").toList =
        (lines.map String.toList).flatMap (· ++ ['\n']) := by
  obtain ⟨source, text⟩ := reports.textLine time
  have front := reports.newline_not_mem_front plain
  have behind : '\n' ∉ (record.source ++ ": ").toList :=
    newline_not_mem_append source (by decide)
  rcases reports.message_cases with
    single | ⟨expression, fault, start, report, stopped, alone, ends⟩
  · refine ⟨_, .whole _ text, ?_, ?_⟩
    · intro line member
      rw [List.mem_singleton.mp member]
      exact newline_not_mem_append front (newline_not_mem_append behind single)
    · rw [text]
      simp
  · have text' : record.textLine time =
        record.front time ++ (record.source ++ ": " ++ start) ++ "\n" := by
      rw [text, ends]
      simp only [String.append_assoc]
    refine ⟨_, .broken expression fault _ report stopped text', ?_, ?_⟩
    · intro line member
      simp only [List.mem_cons, List.not_mem_nil, or_false] at member
      rcases member with rfl | rfl
      · exact newline_not_mem_append front (newline_not_mem_append behind alone)
      · decide
    · rw [text']
      simp

theorem Reports.count_line (reports : Reports record) (plain : '\n' ∉ time.toList) :
    (record.line .text time).toList.count '\n' = record.breaks := by
  obtain ⟨source, text⟩ := reports.textLine time
  have front := List.count_eq_zero.mpr (reports.newline_not_mem_front plain)
  have behind : List.count '\n' (record.source ++ ": ").toList = 0 :=
    List.count_eq_zero.mpr (newline_not_mem_append source (by decide))
  rw [Record.line, text, String.toList_append, String.toList_append, List.count_append,
    List.count_append, front, behind, Nat.zero_add, Nat.zero_add]
  rfl

end

/-- The lines of an event: those of its record, and none if its message cannot be made. -/
structure Event.Takes (time : String) (event : Event) (lines : List String) : Prop where
  made : ∀ record, event.record = .ok record → record.Takes time lines
  unmade : ∀ fault, event.record = .error fault → lines = []

structure Lays (logged : List (Context × Event)) (whole : String) (blocks : List (List String)) :
    Prop where
  takes : List.Forall₂ (fun entry lines => entry.2.Takes entry.1.time lines) logged blocks
  single : ∀ line ∈ blocks.flatten, '\n' ∉ line.toList
  text : whole.toList = (blocks.flatten.map String.toList).flatMap (· ++ ['\n'])
  count : whole.toList.count '\n' =
    logged.countP (·.2.record.isOk) + weightOf Event.breaks (logged.map (·.2))

section

variable {first : Context × Event} {rest : List (Context × Event)} {text : String}
  {blocks : List (List String)}

theorem Lays.cons_of_record (lays : Lays rest text blocks) {record : Record}
    (made : first.2.record = .ok record) (reports : Reports record)
    (plain : '\n' ∉ first.1.time.toList) :
    ∃ lines, Lays (first :: rest) (record.textLine first.1.time ++ "\n" ++ text)
      (lines :: blocks) := by
  obtain ⟨lines, takes, single, laid⟩ := reports.takes plain
  refine ⟨lines, .cons ⟨fun record' made' => ?_, fun fault failed => ?_⟩ lays.takes,
    fun line member => ?_, ?_, ?_⟩
  · rw [made] at made'
    exact Except.ok.inj made' ▸ takes
  · rw [made] at failed
    cases failed
  · rcases List.mem_append.mp member with own | later
    · exact single line own
    · exact lays.single line later
  · rw [String.toList_append, laid, lays.text, List.flatten_cons, List.map_append,
      List.flatMap_append]
  · have line : (record.textLine first.1.time).toList.count '\n' = record.breaks :=
      reports.count_line plain
    have ending : "\n".toList.count '\n' = 1 := rfl
    have counted : first.2.record.isOk = true := by rw [made]; rfl
    rw [String.toList_append, String.toList_append, List.count_append, List.count_append, line,
      ending, lays.count, List.countP_cons, if_pos counted, List.map_cons, Answer.weightOf_cons,
      Event.breaks_of_record made]
    omega

theorem Lays.cons_of_fault (lays : Lays rest text blocks) {fault : Template.Fault}
    (failed : first.2.record = .error fault) : Lays (first :: rest) text ([] :: blocks) := by
  refine ⟨.cons ⟨fun record made => ?_, fun _ _ => rfl⟩ lays.takes, lays.single, lays.text, ?_⟩
  · rw [failed] at made
    cases made
  · have uncounted : ¬first.2.record.isOk = true := by
      rw [failed]
      exact Bool.false_ne_true
    rw [lays.count, List.countP_cons, if_neg uncounted, List.map_cons, Answer.weightOf_cons,
      Event.breaks_of_fault failed, Nat.zero_add, Nat.add_zero]

end

theorem exists_lays (file : String) {logged : List (Context × Event)}
    (reports : ∀ entry ∈ logged, ∀ record, entry.2.record = .ok record → Reports record)
    (plain : ∀ entry ∈ logged, '\n' ∉ entry.1.time.toList) :
    ∃ blocks, Lays logged (transcript (logged.map fun (context, event) =>
      ⟨some ⟨.debug, .text, some file⟩, context, event⟩)) blocks := by
  induction logged with
  | nil => exact ⟨[], .nil, nofun, rfl, rfl⟩
  | cons first rest ih =>
    obtain ⟨blocks, lays⟩ :=
      ih (fun entry member => reports entry (List.mem_cons_of_mem _ member))
        fun entry member => plain entry (List.mem_cons_of_mem _ member)
    rw [List.map_cons, transcript_cons]
    cases made : first.2.record with
    | ok record =>
      have reports' := reports first List.mem_cons_self record made
      obtain ⟨lines, laid⟩ :=
        lays.cons_of_record made reports' (plain first List.mem_cons_self)
      have reached : first.2.level.reaches .debug = true :=
        Event.level_of_record made ▸ reports'.reaches
      rw [Entry.line?_of_record made reached]
      exact ⟨lines :: blocks, laid⟩
    | error fault =>
      rw [Entry.line?_of_fault made]
      exact ⟨[] :: blocks, String.empty_append.symm ▸ lays.cons_of_fault made⟩

/-- Under a set-up for the text format that lets all events through, calls that evaluate
expressions add to the log file what they log: for each event whose message can be made a line that
begins with its own time and level. There are as many line breaks as such events and, on top of
them, one for each expression whose evaluation stops at a line break; behind the line of a record
that reports it comes an empty one, and there are no other lines. The messages of all events can be
made if the expressions and their characters are so few that their numbers can be written. -/
theorem text_of_calls {opens : String → Option String} {name file : String} (named : name ≠ "")
    (openable : opens name = some file) (journal : Journal) {calls : List Call}
    {logged : List (Context × Event)} (events : logged.map (·.2) = calls.flatMap (·.events))
    (clock : ∀ entry ∈ logged, Timestamp.IsStamp entry.1.time) :
    ∃ text, (((journal.setup opens ⟨"DEBUG", some name, "text"⟩).2).logEach logged).text file =
        journal.text file ++ text ∧
      text.toList.count '\n' =
        logged.countP (·.2.record.isOk) + (calls.map Call.stops).sum ∧
      (∃ blocks : List (List String),
        text.toList.splitOn '\n' = blocks.flatten.map String.toList ++ [[]] ∧
        List.Forall₂ (fun entry lines => entry.2.Takes entry.1.time lines) logged blocks) ∧
      ((∀ call ∈ calls, WritableCounts call.expressions) →
        ∀ entry ∈ logged, ∃ record, entry.2.record = .ok record) := by
  have plain : ∀ entry ∈ logged, '\n' ∉ entry.1.time.toList := fun entry member =>
    (clock entry member).newline_not_mem
  have called : ∀ entry ∈ logged, ∃ call ∈ calls, entry.2 ∈ call.events := fun entry member =>
    List.mem_flatMap.mp (events ▸ List.mem_map_of_mem member)
  have reports : ∀ entry ∈ logged, ∀ record, entry.2.record = .ok record → Reports record := by
    intro entry member record made
    obtain ⟨call, _, own⟩ := called entry member
    exact call.evaluates.reports own made
  have resolved :=
    Session.resolve_named (show Level.choice? "DEBUG" = some .debug by decide +kernel)
      (show Format.ofName? "text" = some .text by decide +kernel) named
  have ready : (journal.setup opens ⟨"DEBUG", some name, "text"⟩).2 =
      (journal.install opens ⟨.debug, some name, .text⟩).2 := by
    simp only [Journal.setup, resolved]
  have opened :
      Setup.route? ⟨.debug, some name, .text⟩ opens = some ⟨.debug, .text, some file⟩ := by
    simp only [Setup.route?, openable, Option.map_some]
  obtain ⟨follows, kept, _⟩ :=
    journal.install_follows (SetupRequest.severity_pos resolved) opened
  obtain ⟨blocks, lays⟩ := exists_lays file reports plain
  have written := follows.text_logEach_of_named rfl logged
  rw [kept, ← ready] at written
  refine ⟨_, written, ?_, ⟨blocks, ?_, lays.takes⟩, fun writable entry member => ?_⟩
  · rw [lays.count, events, Answer.weightOf_flatMap]
    exact congrArg _ (congrArg List.sum
      (List.map_congr_left fun call _ => call.evaluates.breaks))
  · rw [lays.text, splitOn_lines]
    intro line member
    obtain ⟨line', within, rfl⟩ := List.mem_map.mp member
    exact lays.single line' within
  · obtain ⟨call, among, own⟩ := called entry member
    exact call.evaluates.exists_record (writable call among) own

def breaking : List Call :=
  [⟨.standard, ["2+"], _, .single "2+"⟩, ⟨.standard, ["\n"], _, .single "\n"⟩]

theorem text_of_calls_breaking :
    let ready := (Journal.initial.setup some ⟨"DEBUG", some "f", "text"⟩).2
    let logged := (breaking.flatMap (·.events)).map (contextAt "1970-01-01T00:00:00.000+00:00", ·)
    logged.length = 2 ∧ ((ready.logEach logged).text "f").toList.count '\n' = 3 := by
  intro ready logged
  have events : logged.map (·.2) = breaking.flatMap (·.events) := by
    rw [List.map_map]
    exact List.map_id _
  have stamp : Timestamp.IsStamp "1970-01-01T00:00:00.000+00:00" := ⟨0, by decide +kernel⟩
  have clock : ∀ entry ∈ logged, Timestamp.IsStamp entry.1.time := by
    intro entry member
    obtain ⟨event, _, rfl⟩ := List.mem_map.mp member
    exact stamp
  obtain ⟨text, appended, breaks, _⟩ :=
    @text_of_calls some "f" "f" (by decide) rfl .initial _ _ events clock
  have whole : (ready.logEach logged).text "f" = text := appended.trans String.empty_append
  rw [whole, breaks]
  exact ⟨rfl, rfl⟩

end Reckoner.Log
