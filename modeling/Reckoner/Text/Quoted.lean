import Reckoner.Text.Padded
import Reckoner.Text.Printable

/-!
Quoted forms of texts and of byte strings. Single quotes enclose them unless the content has a
single quote and no double quote. What does not show as itself is written as an escape.
-/
namespace Reckoner.Text

def quoteFor (content : List Char) : Char :=
  if content.contains '\'' && !content.contains '"' then '"' else '\''

def numericEscape (code : Nat) : List Char :=
  if code < 0x100 then '\\' :: 'x' :: hexadecimal 2 code
  else if code < 0x10000 then '\\' :: 'u' :: hexadecimal 4 code
  else '\\' :: 'U' :: hexadecimal 8 code

/-- One character between the given quotes; `plain` says which show as themselves. -/
def quotedChar (plain : Char → Bool) (quote c : Char) : List Char :=
  if c = quote || c = '\\' then ['\\', c]
  else if c = '\n' then ['\\', 'n']
  else if c = '\r' then ['\\', 'r']
  else if c = '\t' then ['\\', 't']
  else if plain c then [c]
  else numericEscape c.toNat

def quotedWith (plain : Char → Bool) (content : List Char) : List Char :=
  let quote := quoteFor content
  quote :: content.flatMap (quotedChar plain quote) ++ [quote]

def quoted (text : String) : String := String.ofList (quotedWith isPrintable text.toList)

def asciiEscaped (text : String) : String :=
  String.ofList (text.toList.flatMap fun c => if c.toNat < 0x80 then [c] else numericEscape c.toNat)

def quotedBytes (bytes : List UInt8) : String :=
  String.ofList ('b' :: quotedWith (fun c => 0x20 ≤ c.toNat && c.toNat < 0x7F)
    (bytes.map fun byte => Char.ofNat byte.toNat))

end Reckoner.Text
