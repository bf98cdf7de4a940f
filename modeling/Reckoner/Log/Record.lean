import Reckoner.Log.Level

/-! Log records: what happened, how severe it is, and who says so. -/
namespace Reckoner.Log

structure Incident where
  name : String
  detail : String
  deriving DecidableEq, Repr

/-- An incident that says nothing is known by its name alone. -/
def Incident.text (incident : Incident) : String :=
  if incident.detail = "" then incident.name else incident.name ++ ": " ++ incident.detail

structure Record where
  level : Level
  source : String
  message : String
  incident : Option Incident := none
  deriving DecidableEq, Repr

def rootName : String := "hitung"

def sourceNamed (name : String) : String := rootName ++ "." ++ name

end Reckoner.Log
