import Reckoner.Log.Event
import Reckoner.Log.Line

/-!
The state of logging: the level and the handlers of the program's logger, and the files written so
far. A set-up takes all handlers away, whoever attached them, and puts one for the error stream in
their place and one for a file if it names one.
-/
namespace Reckoner.Log

inductive Handler where
  | stream (format : Format)
  | file (path : String) (format : Format)
  /-- A handler that somebody else attached: its class, which one it is, and the severity from which
  it takes records. -/
  | foreign (className : String) (number : Nat) (least : Int)
  deriving DecidableEq, Repr

def Handler.className : Handler → String
  | stream _ => "StreamHandler"
  | file _ _ => "FileHandler"
  | foreign className _ _ => className

structure Journal where
  level : Level
  handlers : List Handler
  files : List (String × String)
  /-- What handlers of others were handed, by their numbers. -/
  handed : List (Nat × Event)

structure Context where
  /-- The time that lines are stamped with. -/
  time : String
  /-- The file that a name opens for more text, if it opens one. -/
  opens : String → Option String
  /-- What is said on the error stream of a record whose message cannot be made. -/
  complaint : Event → Template.Fault → String

structure SetupRequest where
  level : String := "INFO"
  file : Option String := none
  format : String := "text"
  deriving DecidableEq, Repr

inductive SetupFault where
  | unknownLevel (name : String)
  | unknownFormat (name : String)
  | cannotOpen (file : String)
  deriving DecidableEq, Repr

def SetupFault.message : SetupFault → String
  | unknownLevel name => "Unknown log level: " ++ Text.quoted name
  | unknownFormat name => "Unknown log format: " ++ Text.quoted name
  | cannotOpen file => "[Errno 2] No such file or directory: " ++ Text.quoted file

structure Setup where
  level : Level
  file : Option String
  format : Format
  deriving DecidableEq, Repr

/-- The level is looked at before the format; an empty file name means no file. -/
def SetupRequest.resolve (request : SetupRequest) : Except SetupFault Setup :=
  match Level.choice? request.level with
  | none => .error (.unknownLevel request.level)
  | some level =>
    match Format.ofName? request.format with
    | none => .error (.unknownFormat request.format)
    | some format => .ok ⟨level, request.file.filter (· ≠ ""), format⟩

def Event.line (event : Event) (format : Format) (time : String) : Except Template.Fault String :=
  event.record.map fun record => record.line format time ++ "\n"

/-- The bare message; an incident begins on a line of its own. -/
def Record.bareLine (record : Record) : String :=
  (match record.incident with
    | none => record.message
    | some incident =>
      record.message ++ (if record.message.endsWith "\n" then "" else "\n") ++ incident.text) ++
    "\n"

namespace Journal

def initial : Journal := ⟨.notSet, [], [], []⟩

/-- The content of a file; a file that was never opened is absent. -/
def content? (journal : Journal) (path : String) : Option String := journal.files.lookup path

def appendTo (path text : String) : List (String × String) → List (String × String)
  | [] => [(path, text)]
  | (name, content) :: rest =>
    if name = path then (name, content ++ text) :: rest
    else (name, content) :: appendTo path text rest

def write (journal : Journal) (path text : String) : Journal :=
  { journal with files := appendTo path text journal.files }

def add (journal : Journal) (handler : Handler) : Journal :=
  { journal with handlers := journal.handlers ++ [handler] }

def remove (journal : Journal) (handler : Handler) : Journal :=
  { journal with handlers := journal.handlers.erase handler }

def reset (journal : Journal) : Journal :=
  { journal.handlers.foldl remove journal with level := .notSet }

/-- The handlers of a set-up. The file is opened here, before any handler is attached. -/
def prepare (opens : String → Option String) (setup : Setup) (journal : Journal) :
    Except SetupFault (List Handler × Journal) :=
  match setup.file with
  | none => .ok ([.stream setup.format], journal)
  | some name =>
    match opens name with
    | none => .error (.cannotOpen name)
    | some path => .ok ([.stream setup.format, .file path setup.format], journal.write path "")

/-- Puts new handlers in place of the old ones. They are prepared when the old ones are gone and the
level is set, so a file that cannot be opened leaves no handlers behind. -/
def install (opens : String → Option String) (setup : Setup) (journal : Journal) :
    Except SetupFault Unit × Journal :=
  let cleared := { journal.reset with level := setup.level }
  match prepare opens setup cleared with
  | .error fault => (.error fault, cleared)
  | .ok (handlers, opened) => (.ok (), handlers.foldl add opened)

def setup (opens : String → Option String) (request : SetupRequest) (journal : Journal) :
    Except SetupFault Unit × Journal :=
  match request.resolve with
  | .error fault => (.error fault, journal)
  | .ok wanted => journal.install opens wanted

/-- The level that records have to reach: warnings and above, where none is set. -/
def threshold (journal : Journal) : Level :=
  if journal.level.severity = 0 then .warning else journal.level

/-- Records without a positive severity are never let through. -/
def admits (journal : Journal) (level : Level) : Bool :=
  0 < level.severity && level.reaches journal.threshold

def emit (context : Context) (event : Event) (journal : Journal) : Handler → String × Journal
  | .stream format =>
    match event.line format context.time with
    | .ok line => (line, journal)
    | .error fault => (context.complaint event fault, journal)
  | .file path format =>
    match event.line format context.time with
    | .ok line => ("", journal.write path line)
    | .error fault => (context.complaint event fault, journal)
  | .foreign _ number least =>
    ("", if least ≤ event.level.severity then
        { journal with handed := journal.handed ++ [(number, event)] }
      else journal)

def emitAll (context : Context) (event : Event) (journal : Journal) :
    List Handler → String × Journal
  | [] => ("", journal)
  | handler :: rest =>
    let (text, next) := journal.emit context event handler
    let (later, last) := next.emitAll context event rest
    (text ++ later, last)

/-- What becomes of an event without handlers: warnings and above reach the error stream as bare
messages. -/
def lastResort (context : Context) (event : Event) : String :=
  if event.level.reaches .warning then
    match event.record with
    | .ok record => record.bareLine
    | .error fault => context.complaint event fault
  else ""

def log (context : Context) (journal : Journal) (event : Event) : String × Journal :=
  if journal.admits event.level then
    if journal.handlers.isEmpty then (lastResort context event, journal)
    else journal.emitAll context event journal.handlers
  else ("", journal)

def logAll (context : Context) (journal : Journal) : List Event → String × Journal
  | [] => ("", journal)
  | event :: rest =>
    let (text, next) := journal.log context event
    let (later, last) := next.logAll context rest
    (text ++ later, last)

end Journal

end Reckoner.Log
