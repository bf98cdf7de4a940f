import Reckoner.NumberText
import Reckoner.Numeral
import Reckoner.Text.Quoted
import Reckoner.Value.Basic

/-!
The texts of a value: quoted, as it stands inside a list or a message, and plain. Neither is there
for a value with a whole number in it that has too many digits.
-/
namespace Reckoner.Value

def enclosed (opening closing : String) (items : List String) : String :=
  opening ++ ", ".intercalate items ++ closing

mutual

def quoted : Value → String
  | .text content => Text.quoted content
  | .nothing => "None"
  | .bool flag => if flag then "True" else "False"
  | .int number => toString number
  | .float number => NumberText.shortest number
  | .bytes content => Text.quotedBytes content
  | .list items => enclosed "[" "]" (quotedItems items)
  | .dict entries => enclosed "\x7b" "\x7d" (quotedEntries entries)

def quotedItems : List Value → List String
  | [] => []
  | item :: rest => quoted item :: quotedItems rest

def quotedEntries : List (Value × Value) → List String
  | [] => []
  | entry :: rest => quotedEntry entry :: quotedEntries rest

def quotedEntry : Value × Value → String
  | (key, value) => quoted key ++ ": " ++ quoted value

end

def plain : Value → String
  | .text content => content
  | other => quoted other

mutual

def isWritable : Value → Bool
  | .int number => Numeral.isWritable number
  | .list items => areWritable items
  | .dict entries => haveWritable entries
  | .text _ | .nothing | .bool _ | .float _ | .bytes _ => true

def areWritable : List Value → Bool
  | [] => true
  | item :: rest => isWritable item && areWritable rest

def haveWritable : List (Value × Value) → Bool
  | [] => true
  | entry :: rest => isWritableEntry entry && haveWritable rest

def isWritableEntry : Value × Value → Bool
  | (key, value) => isWritable key && isWritable value

end

end Reckoner.Value
