import Reckoner.Log.Journal

/-!
Where records go. Each one that is logged while a set-up is in force, and that its level lets
through, makes one line: on the error stream, and at the end of the file of that set-up. One whose
message cannot be made is complained of instead, by each of the handlers.
-/
namespace Reckoner.Log

/-! Levels. -/

theorem Level.severity_pos_of_choice? {name : String} {level : Level}
    (chosen : Level.choice? name = some level) : 0 < level.severity := by
  have member : level ∈ Level.choices := List.mem_of_find?_eq_some chosen
  have positive : ∀ level ∈ Level.choices, 0 < level.severity := by decide
  exact positive level member

theorem SetupRequest.severity_pos {request : SetupRequest} {setup : Setup}
    (resolved : request.resolve = .ok setup) : 0 < setup.level.severity := by
  unfold SetupRequest.resolve at resolved
  split at resolved
  · cases resolved
  · next level chosen =>
    split at resolved
    · cases resolved
    · cases resolved
      exact Level.severity_pos_of_choice? chosen

/-! Entries. -/

/-- What a set-up leads to: its level and format, and the file that it opened. -/
structure Route where
  level : Level
  format : Format
  file : Option String

def Setup.route? (setup : Setup) (opens : String → Option String) : Option Route :=
  match setup.file with
  | none => some ⟨setup.level, setup.format, none⟩
  | some name => (opens name).map fun path => ⟨setup.level, setup.format, some path⟩

def Route.handlers (route : Route) : List Handler :=
  .stream route.format :: (route.file.map (Handler.file · route.format)).toList

theorem Setup.isSome_route?_iff {opens : String → Option String} {setup : Setup} :
    (setup.route? opens).isSome ↔ ∀ name, setup.file = some name → (opens name).isSome := by
  unfold Setup.route?
  cases setup.file with
  | none => exact iff_of_true rfl nofun
  | some name => simp

theorem Setup.level_eq_of_route? {opens : String → Option String} {setup : Setup} {route : Route}
    (opened : setup.route? opens = some route) : route.level = setup.level := by
  unfold Setup.route? at opened
  cases named : setup.file with
  | none =>
    rw [named] at opened
    rw [← Option.some.inj opened]
  | some name =>
    rw [named] at opened
    obtain ⟨path, _, rfl⟩ := Option.map_eq_some_iff.mp opened
    rfl

structure Entry where
  route : Option Route
  context : Context
  event : Event

def Entry.file? (entry : Entry) : Option String := entry.route.bind (·.file)

/-- The line of an entry. There is none without a route or below its level, or if the message cannot
be made. -/
def Entry.line? (entry : Entry) : Option String :=
  entry.route.bind fun route =>
    if entry.event.level.reaches route.level then
      (entry.event.line route.format entry.context.time).toOption
    else none

/-- What the error stream is told: the line, or a complaint from each handler. -/
def Entry.report (entry : Entry) : String :=
  entry.route.elim "" fun route =>
    if entry.event.level.reaches route.level then
      match entry.event.line route.format entry.context.time with
      | .ok line => line
      | .error fault =>
        String.join (route.handlers.map fun _ => entry.context.complaint entry.event fault)
    else ""

def transcript (entries : List Entry) : String := String.join (entries.filterMap Entry.line?)

def entriesFor (file : String) (entries : List Entry) : List Entry :=
  entries.filter (·.file? = some file)

@[simp] theorem transcript_nil : transcript [] = "" := rfl

theorem transcript_append (first second : List Entry) :
    transcript (first ++ second) = transcript first ++ transcript second := by
  rw [transcript, List.filterMap_append, String.join_append, transcript, transcript]

theorem entriesFor_append (file : String) (first second : List Entry) :
    entriesFor file (first ++ second) = entriesFor file first ++ entriesFor file second :=
  List.filter_append ..

theorem transcript_singleton (entry : Entry) : transcript [entry] = entry.line?.getD "" := by
  rw [transcript]
  cases line : entry.line? <;> simp [line]

theorem transcript_cons (entry : Entry) (rest : List Entry) :
    transcript (entry :: rest) = entry.line?.getD "" ++ transcript rest := by
  rw [← transcript_singleton, ← transcript_append, List.singleton_append]

theorem Entry.line?_of_record {route : Route} {context : Context} {event : Event}
    {record : Record} (made : event.record = .ok record)
    (reached : event.level.reaches route.level = true) :
    Entry.line? ⟨some route, context, event⟩ =
      some (record.line route.format context.time ++ "\n") := by
  rw [line?, Option.bind_some, if_pos reached, Event.line, made]
  rfl

theorem Entry.line?_of_fault {route : Option Route} {context : Context} {event : Event}
    {fault : Template.Fault} (failed : event.record = .error fault) :
    Entry.line? ⟨route, context, event⟩ = none := by
  unfold line?
  cases route with
  | none => rfl
  | some route =>
    rw [Option.bind_some, Event.line, failed]
    split <;> rfl

theorem transcript_entriesFor_singleton (file : String) (entry : Entry) :
    transcript (entriesFor file [entry]) =
      if entry.file? = some file then transcript [entry] else "" := by
  by_cases named : entry.file? = some file <;> simp [entriesFor, named]

namespace Journal

/-! Files. -/

theorem lookup_appendTo (path text other : String) (files : List (String × String)) :
    (appendTo path text files).lookup other =
      if other = path then some ((files.lookup path).getD "" ++ text) else files.lookup other := by
  induction files with
  | nil =>
    by_cases same : other = path
    · simp [appendTo, same]
    · simp [appendTo, List.lookup_cons, same, beq_eq_false_iff_ne.mpr same]
  | cons pair rest ih =>
    obtain ⟨name, content⟩ := pair
    by_cases here : name = path
    · subst here
      by_cases same : other = name
      · simp [appendTo, same]
      · simp [appendTo, List.lookup_cons, same, beq_eq_false_iff_ne.mpr same]
    · rw [appendTo, if_neg here, List.lookup_cons, List.lookup_cons, List.lookup_cons, ih]
      by_cases same : other = path
      · subst same
        simp [beq_eq_false_iff_ne.mpr (Ne.symm here)]
      · simp [same]

/-- The text of a file so far; a file that is absent has none. -/
def text (journal : Journal) (path : String) : String := (journal.content? path).getD ""

theorem text_write (journal : Journal) (path text other : String) :
    (journal.write path text).text other =
      journal.text other ++ if other = path then text else "" := by
  rw [Journal.text, content?, write, lookup_appendTo]
  by_cases same : other = path
  · rw [if_pos same, if_pos same, same]
    rfl
  · rw [if_neg same, if_neg same, String.append_empty]
    rfl

theorem content?_write_of_ne {path other : String} (different : other ≠ path) (journal : Journal)
    (text : String) : (journal.write path text).content? other = journal.content? other := by
  rw [content?, write, lookup_appendTo, if_neg different]
  rfl

/-! Handlers. -/

theorem foldl_remove (journal : Journal) :
    journal.handlers.foldl remove journal = { journal with handlers := [] } := by
  obtain ⟨level, handlers, files, handed⟩ := journal
  induction handlers with
  | nil => rfl
  | cons handler rest ih =>
    have removed : remove ⟨level, handler :: rest, files, handed⟩ handler =
        ⟨level, rest, files, handed⟩ := by
      rw [remove, List.erase_cons_head]
    rw [List.foldl_cons, removed]
    exact ih

theorem reset_eq (journal : Journal) :
    journal.reset = { journal with level := .notSet, handlers := [] } := by
  rw [reset, foldl_remove]

theorem foldl_add (handlers : List Handler) (journal : Journal) :
    handlers.foldl add journal = { journal with handlers := journal.handlers ++ handlers } := by
  induction handlers generalizing journal with
  | nil => rw [List.foldl_nil, List.append_nil]
  | cons handler rest ih =>
    rw [List.foldl_cons, ih, add, List.append_assoc]
    rfl

/-! What is in force. -/

/-- A journal has the handlers and the level of a route, or no handlers if none is in force. -/
structure Follows (journal : Journal) (current : Option Route) : Prop where
  handlers : journal.handlers = current.elim [] Route.handlers
  level : ∀ route, current = some route →
    journal.level = route.level ∧ 0 < route.level.severity

theorem follows_of_unrouted {journal : Journal} (unrouted : journal.handlers = []) :
    journal.Follows none :=
  ⟨unrouted, fun _ set => absurd set (Option.some_ne_none _).symm⟩

theorem follows_reset (journal : Journal) : journal.reset.Follows none := by
  rw [reset_eq]
  exact follows_of_unrouted rfl

section

variable {journal : Journal} {current : Option Route} {route : Route} {event : Event}
  {context : Context}

theorem Follows.write (follows : journal.Follows current) (path text : String) :
    (journal.write path text).Follows current := ⟨follows.handlers, follows.level⟩

theorem Follows.admits_eq (follows : journal.Follows (some route)) (level : Level) :
    journal.admits level = level.reaches route.level := by
  obtain ⟨same, positive⟩ := follows.level route rfl
  have threshold : journal.threshold = route.level := by
    rw [Journal.threshold, same, if_neg (Int.ne_of_gt positive)]
  rw [admits, threshold]
  cases reached : level.reaches route.level with
  | false => exact Bool.and_false _
  | true =>
    have above : route.level.severity ≤ level.severity := of_decide_eq_true reached
    rw [Bool.and_true]
    exact decide_eq_true (Int.lt_of_lt_of_le positive above)

theorem emitAll_handlers (journal : Journal) (route : Route) :
    journal.emitAll context event route.handlers =
      match event.line route.format context.time with
      | .ok line => (line, route.file.elim journal (journal.write · line))
      | .error fault =>
        (String.join (route.handlers.map fun _ => context.complaint event fault), journal) := by
  obtain ⟨level, format, file⟩ := route
  cases written : event.line format context.time <;> cases file <;>
    simp [Route.handlers, emitAll, emit, written]

theorem Follows.log_eq (follows : journal.Follows (some route)) :
    journal.log context event =
      (Entry.report ⟨some route, context, event⟩,
        match route.file, Entry.line? ⟨some route, context, event⟩ with
        | some path, some line => journal.write path line
        | _, _ => journal) := by
  have handlers : journal.handlers = route.handlers := follows.handlers
  have attached : journal.handlers.isEmpty = false := by rw [handlers]; rfl
  rw [log, follows.admits_eq, Entry.report, Entry.line?, Option.elim_some, Option.bind_some]
  by_cases reached : event.level.reaches route.level = true
  · rw [if_pos reached, attached, if_neg Bool.false_ne_true, handlers, emitAll_handlers,
      if_pos reached, if_pos reached]
    cases event.line route.format context.time with
    | ok line => cases route.file <;> rfl
    | error fault => cases route.file <;> rfl
  · rw [if_neg reached, if_neg reached, if_neg reached]
    cases route.file <;> rfl

/-- Entries are delivered if their lines, and no others, are written to the error stream and to the
files that were the current ones, and no other file is touched. -/
structure Delivers (journal : Journal) (current : Option Route) (entries : List Entry)
    (errors : String) (later : Journal) : Prop where
  follows : later.Follows current
  errors : current.isSome → errors = String.join (entries.map Entry.report)
  text : ∀ file, later.text file = journal.text file ++ transcript (entriesFor file entries)
  others : ∀ file, (∀ route, current = some route → route.file ≠ some file) →
    later.content? file = journal.content? file

theorem Follows.delivers_nil (follows : journal.Follows current) :
    journal.Delivers current [] "" journal where
  follows := follows
  errors := fun _ => rfl
  text := fun _ => String.append_empty.symm
  others := fun _ _ => rfl

theorem log_of_unrouted (unrouted : journal.handlers = []) :
    journal.log context event =
      (if journal.admits event.level then lastResort context event else "", journal) := by
  rw [log, unrouted]
  split <;> rfl

theorem Follows.delivers_log_none (follows : journal.Follows none) :
    journal.Delivers none [⟨none, context, event⟩] (journal.log context event).1
      (journal.log context event).2 := by
  rw [log_of_unrouted follows.handlers]
  refine ⟨follows, nofun, fun file => ?_, fun _ _ => rfl⟩
  rw [transcript_entriesFor_singleton, transcript_singleton]
  simp [Entry.line?]

theorem Follows.delivers_log_some (follows : journal.Follows (some route)) :
    journal.Delivers (some route) [⟨some route, context, event⟩] (journal.log context event).1
      (journal.log context event).2 := by
  have told : ∀ report, report = String.join ([⟨some route, context, event⟩].map Entry.report) ↔
      report = Entry.report ⟨some route, context, event⟩ := by
    intro report
    rw [List.map_singleton, String.join_cons, String.join_nil, String.append_empty]
  rw [follows.log_eq]
  cases named : route.file with
  | none =>
    refine ⟨follows, fun _ => (told _).mpr rfl, fun file => ?_, fun _ _ => rfl⟩
    rw [transcript_entriesFor_singleton, if_neg (by simp [Entry.file?, named]),
      String.append_empty]
  | some path =>
    cases made : Entry.line? ⟨some route, context, event⟩ with
    | none =>
      refine ⟨follows, fun _ => (told _).mpr rfl, fun file => ?_, fun _ _ => rfl⟩
      rw [transcript_entriesFor_singleton, transcript_singleton, made]
      simp
    | some line =>
      refine ⟨follows.write path line, fun _ => (told _).mpr rfl, fun file => ?_, ?_⟩
      · rw [text_write, transcript_entriesFor_singleton, transcript_singleton, made]
        by_cases same : file = path
        · simp [same, Entry.file?, named]
        · simp [same, Entry.file?, named, Ne.symm same]
      · intro file other
        have different : file ≠ path := fun same => other route rfl (named.trans (same ▸ rfl))
        exact content?_write_of_ne different journal line

theorem Follows.delivers_log (follows : journal.Follows current) (context : Context)
    (event : Event) :
    journal.Delivers current [⟨current, context, event⟩] (journal.log context event).1
      (journal.log context event).2 := by
  cases current with
  | none => exact follows.delivers_log_none
  | some route => exact follows.delivers_log_some

theorem Delivers.append {middle later : Journal} {first second : List Entry}
    {errors errors' : String} (one : journal.Delivers current first errors middle)
    (two : middle.Delivers current second errors' later) :
    journal.Delivers current (first ++ second) (errors ++ errors') later where
  follows := two.follows
  errors := fun routed => by
    rw [one.errors routed, two.errors routed, List.map_append, String.join_append]
  text := by
    intro file
    rw [two.text, one.text, entriesFor_append, transcript_append, String.append_assoc]
  others := fun file other => (two.others file other).trans (one.others file other)

theorem Follows.delivers_logAll (follows : journal.Follows current) (context : Context)
    (events : List Event) :
    journal.Delivers current (events.map (⟨current, context, ·⟩))
      (journal.logAll context events).1 (journal.logAll context events).2 := by
  induction events generalizing journal with
  | nil => exact follows.delivers_nil
  | cons event rest ih =>
    have one := follows.delivers_log context event
    exact one.append (ih one.follows)

end

/-! Set-ups. -/

theorem install_of_route? {opens : String → Option String} {setup : Setup} {route : Route}
    (journal : Journal) (opened : setup.route? opens = some route) :
    journal.install opens setup = (.ok (),
      { route.file.elim journal (journal.write · "") with
        level := setup.level, handlers := route.handlers }) := by
  unfold Setup.route? at opened
  cases named : setup.file with
  | none =>
    rw [named] at opened
    obtain rfl := Option.some.inj opened
    simp only [install, prepare, named, reset_eq, foldl_add]
    rfl
  | some name =>
    rw [named] at opened
    obtain ⟨path, found, rfl⟩ := Option.map_eq_some_iff.mp opened
    simp only [install, prepare, named, found, reset_eq, foldl_add]
    rfl

theorem install_of_closed {opens : String → Option String} {setup : Setup} (journal : Journal)
    (closed : setup.route? opens = none) :
    ∃ name, setup.file = some name ∧ opens name = none ∧
      journal.install opens setup =
        (.error (.cannotOpen name), { journal with level := setup.level, handlers := [] }) := by
  unfold Setup.route? at closed
  cases named : setup.file with
  | none => simp [named] at closed
  | some name =>
    rw [named] at closed
    have missing : opens name = none := Option.map_eq_none_iff.mp closed
    refine ⟨name, rfl, missing, ?_⟩
    simp only [install, prepare, named, missing, reset_eq]

/-- A set-up takes the place of the one before and touches no file but its own, which it opens for
more text. -/
theorem install_follows {opens : String → Option String} {setup : Setup} {route : Route}
    (journal : Journal) (positive : 0 < setup.level.severity)
    (opened : setup.route? opens = some route) :
    (journal.install opens setup).2.Follows (some route) ∧
      (∀ file, (journal.install opens setup).2.text file = journal.text file) ∧
      ∀ file, route.file ≠ some file →
        (journal.install opens setup).2.content? file = journal.content? file := by
  have same := Setup.level_eq_of_route? opened
  rw [install_of_route? journal opened]
  refine ⟨⟨rfl, ?_⟩, fun file => ?_, fun file other => ?_⟩
  · rintro _ ⟨⟩
    exact ⟨same.symm, same ▸ positive⟩
  · cases route.file with
    | none => rfl
    | some path =>
      change (journal.write path "").text file = _
      rw [text_write, ite_self, String.append_empty]
  · cases named : route.file with
    | none => rfl
    | some path =>
      have different : file ≠ path := fun same => other (same ▸ named)
      exact content?_write_of_ne different journal ""

end Journal

end Reckoner.Log
