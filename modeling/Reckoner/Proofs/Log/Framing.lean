import Mathlib.Data.List.Forall2
import Reckoner.Proofs.Json.RoundTrip
import Reckoner.Proofs.Log.Delivery

/-!
Logs as texts. Records are written one behind the other, each with a line break after it. In the
JSON format every record is one line, and a strict reader gets all parts of the record back from it.
-/
namespace Reckoner.Log

/-! Lines. -/

theorem splitOn_lines {lines : List (List Char)} (plain : ∀ line ∈ lines, '\n' ∉ line) :
    (lines.flatMap (· ++ ['\n'])).splitOn '\n' = lines ++ [[]] := by
  induction lines with
  | nil => rfl
  | cons line lines ih =>
    have others := ih fun line member => plain line (List.mem_cons_of_mem _ member)
    have unbroken : ∀ c ∈ line, (c == '\n') = false := by
      intro c member
      refine beq_eq_false_iff_ne.mpr ?_
      rintro rfl
      exact plain line List.mem_cons_self member
    rw [List.splitOn_eq_splitOnP] at others ⊢
    rw [List.flatMap_cons, List.append_assoc, List.singleton_append,
      List.splitOnP_append_cons_of_forall_mem unbroken '\n' rfl, others, List.cons_append]

/-! Records as they are written. -/

def written (format : Format) (stamped : List (String × Record)) : String :=
  String.join (stamped.map fun (time, record) => record.line format time ++ "\n")

theorem toList_written (format : Format) (stamped : List (String × Record)) :
    (written format stamped).toList =
      (stamped.map fun (time, record) => (record.line format time).toList).flatMap
        (· ++ ['\n']) := by
  rw [written, String.toList_join, List.flatMap_map, List.flatMap_map]
  simp only [String.toList_append]
  rfl

/-- Events are made into records, each at the time of its context. -/
abbrev Made : List (Context × Event) → List (String × Record) → Prop :=
  List.Forall₂ fun logged entry => logged.1.time = entry.1 ∧ logged.2.record = .ok entry.2

theorem transcript_eq_written {route : Route} {logged : List (Context × Event)}
    {stamped : List (String × Record)} (made : Made logged stamped)
    (reached : ∀ entry ∈ logged, entry.2.level.reaches route.level = true) :
    transcript (logged.map fun (context, event) => ⟨some route, context, event⟩) =
      written route.format stamped := by
  induction made with
  | nil => rfl
  | @cons first entry logged stamped own _ ih =>
    obtain ⟨time, record⟩ := own
    have others := ih fun entry member => reached entry (List.mem_cons_of_mem _ member)
    have line : Entry.line? ⟨some route, first.1, first.2⟩ =
        some (entry.2.line route.format entry.1 ++ "\n") :=
      time ▸ Entry.line?_of_record record (reached first List.mem_cons_self)
    rw [List.map_cons, transcript_cons, line, written, List.map_cons, String.join_cons]
    exact congrArg _ others

namespace Journal

def logEach (journal : Journal) (logged : List (Context × Event)) : Journal :=
  logged.foldl (fun journal (context, event) => (journal.log context event).2) journal

theorem Follows.text_logEach_eq {journal : Journal} {route : Route}
    (follows : journal.Follows (some route)) (logged : List (Context × Event)) (file : String) :
    (journal.logEach logged).text file = journal.text file ++
      transcript (entriesFor file
        (logged.map fun (context, event) => ⟨some route, context, event⟩)) := by
  induction logged generalizing journal with
  | nil => exact String.append_empty.symm
  | cons first rest ih =>
    obtain ⟨context, event⟩ := first
    have delivers := follows.delivers_log context event
    have later := ih delivers.follows
    rw [logEach, List.foldl_cons]
    refine later.trans ?_
    rw [delivers.text, String.append_assoc, ← transcript_append, ← entriesFor_append]
    rfl

theorem Follows.text_logEach_of_named {journal : Journal} {route : Route} {file : String}
    (follows : journal.Follows (some route)) (named : route.file = some file)
    (logged : List (Context × Event)) :
    (journal.logEach logged).text file = journal.text file ++
      transcript (logged.map fun (context, event) => ⟨some route, context, event⟩) := by
  have all : entriesFor file
      (logged.map fun (context, event) => (⟨some route, context, event⟩ : Entry)) =
        logged.map fun (context, event) => ⟨some route, context, event⟩ := by
    refine List.filter_eq_self.mpr fun entry member => ?_
    obtain ⟨_, _, rfl⟩ := List.mem_map.mp member
    exact decide_eq_true named
  rw [follows.text_logEach_eq, all]

theorem Follows.text_logEach {journal : Journal} {route : Route} {file : String}
    (follows : journal.Follows (some route)) (named : route.file = some file)
    {logged : List (Context × Event)} {stamped : List (String × Record)}
    (made : Made logged stamped)
    (reached : ∀ entry ∈ logged, entry.2.level.reaches route.level = true) :
    (journal.logEach logged).text file = journal.text file ++ written route.format stamped := by
  rw [follows.text_logEach_of_named named, transcript_eq_written made reached]

end Journal

/-! The JSON format. -/

/-- The members of an object tell everything about a record and its time, and nothing else. -/
structure Record.Described (time : String) (record : Record)
    (members : List (String × Json.Document)) : Prop where
  names : members.map (·.1) = ["time", "level", "logger", "message"] ++
    if record.incident.isSome then ["exc"] else []
  time : members.lookup "time" = some (.string time)
  level : members.lookup "level" = some (.string record.level.name)
  source : members.lookup "logger" = some (.string record.source)
  message : members.lookup "message" = some (.string record.message)
  incident : members.lookup "exc" = record.incident.map fun incident => .string incident.text

theorem Record.isPlain_members (time : String) (record : Record) :
    ∀ entry ∈ record.members time, entry.2.IsPlain := by
  have strings : ∀ entry ∈ record.members time, ∃ content, entry.2 = .string content := by
    rw [members]
    cases record.incident <;> simp
  intro entry member
  obtain ⟨content, text⟩ := strings entry member
  rw [text]
  trivial

theorem Record.read_jsonLine (time : String) (record : Record) :
    ∃ members, Json.read (record.jsonLine time) = some (.object members) ∧
      record.Described time members := by
  refine ⟨_, Json.read_object (record.isPlain_members time), ?_⟩
  rw [members]
  cases incident : record.incident with
  | none => exact ⟨by rw [incident]; rfl, rfl, rfl, rfl, rfl, by rw [incident]; rfl⟩
  | some incident' => exact ⟨by rw [incident]; rfl, rfl, rfl, rfl, rfl, by rw [incident]; rfl⟩

theorem Record.newline_not_mem_jsonLine (time : String) (record : Record) :
    '\n' ∉ (record.jsonLine time).toList := by
  intro member
  have least := Json.le_of_mem_object (record.isPlain_members time) member
  revert least
  decide

/-- A log in the JSON format splits at its line breaks into one line for each record, in their
order, and a strict reader gets the record back from its line. It is what is written at the end of a
file under a set-up with this format that lets the records through. -/
theorem read_written (stamped : List (String × Record)) :
    (∃ lines : List String,
      (written .json stamped).toList.splitOn '\n' = lines.map String.toList ++ [[]] ∧
      List.Forall₂ (fun entry line => ∃ members, Json.read line = some (.object members) ∧
        Record.Described entry.1 entry.2 members) stamped lines) ∧
    ∀ (journal : Journal) (level : Level) (file : String) (logged : List (Context × Event)),
      journal.Follows (some ⟨level, .json, some file⟩) → Made logged stamped →
      (∀ entry ∈ logged, entry.2.level.reaches level = true) →
      (journal.logEach logged).text file = journal.text file ++ written .json stamped := by
  refine ⟨⟨stamped.map fun (time, record) => record.jsonLine time, ?_, ?_⟩, ?_⟩
  · have plain : ∀ line ∈ stamped.map fun (time, record) => (record.line .json time).toList,
        '\n' ∉ line := by
      intro line member
      obtain ⟨⟨time, record⟩, _, rfl⟩ := List.mem_map.mp member
      exact record.newline_not_mem_jsonLine time
    rw [toList_written, splitOn_lines plain, List.map_map]
    rfl
  · rw [List.forall₂_map_right_iff]
    exact List.forall₂_same.mpr fun entry _ => entry.2.read_jsonLine entry.1
  · intro journal level file logged follows made reached
    exact follows.text_logEach rfl made reached

def scattered : Event :=
  { level := .error, source := "hitung.cli", template := "\"a\nb\"",
    incident := some ⟨"ValueError", "c\nd"⟩ }

def contextAt (time : String) : Context := ⟨time, some, fun _ _ => "?"⟩

theorem read_written_scattered :
    let journal := (Journal.initial.install some ⟨.debug, some "f", .json⟩).2
    (journal.logEach [(contextAt "1", scattered)]).text "f" =
      "\x7b\"time\": \"1\", \"level\": \"ERROR\", " ++
      "\"logger\": \"hitung.cli\", \"message\": \"\\\"a\\nb\\\"\", " ++
      "\"exc\": \"ValueError: c\\nd\"\x7d\n" := by
  intro journal
  have follows : journal.Follows (some ⟨.debug, .json, some "f"⟩) :=
    (Journal.install_follows .initial (by decide) rfl).1
  have appended := (read_written [("1", ⟨.error, "hitung.cli", "\"a\nb\"",
    some ⟨"ValueError", "c\nd"⟩⟩)]).2 journal .debug "f" [(contextAt "1", scattered)] follows
      (.cons ⟨rfl, rfl⟩ .nil) fun entry member => by
        rw [List.mem_singleton.mp member]
        decide
  rw [appended]
  decide +kernel

end Reckoner.Log
