import Reckoner.Log.Record
import Reckoner.Log.Template

/-!
What is logged: a template with its arguments. The message is not made before somebody writes the
record out, and then it may turn out that it cannot be made.
-/
namespace Reckoner.Log

structure Event where
  level : Level
  source : String
  template : String
  arguments : List Value := []
  incident : Option Incident := none

def Event.record (event : Event) : Except Template.Fault Record :=
  (Template.fill event.template event.arguments).map fun message =>
    ⟨event.level, event.source, message, event.incident⟩

end Reckoner.Log
