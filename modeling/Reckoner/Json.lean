/-!
One-line JSON objects of scalar members. Strings keep every character but the quote, the backslash
and the controls below the space, which are escaped.
-/
namespace Reckoner.Json

def hexDigit (n : Nat) : Char := if n < 10 then Char.ofNat (48 + n) else Char.ofNat (87 + n)

def escaped (c : Char) : List Char :=
  if c = '"' then ['\\', '"']
  else if c = '\\' then ['\\', '\\']
  else if c = '\n' then ['\\', 'n']
  else if c = '\r' then ['\\', 'r']
  else if c = '\t' then ['\\', 't']
  else if c = '\x08' then ['\\', 'b']
  else if c = '\x0c' then ['\\', 'f']
  else if c.toNat < 0x20 then
    ['\\', 'u', '0', '0', hexDigit (c.toNat / 16), hexDigit (c.toNat % 16)]
  else [c]

theorem le_hexDigit {n : Nat} (small : n < 16) : 0x20 ≤ (hexDigit n).toNat := by
  have all : ∀ k < 16, 0x20 ≤ (hexDigit k).toNat := by decide
  exact all n small

theorem le_of_mem_escaped {c d : Char} (member : d ∈ escaped c) : 0x20 ≤ d.toNat := by
  have pair {x y : Char} (first : 0x20 ≤ x.toNat) (second : 0x20 ≤ y.toNat) (h : d ∈ [x, y]) :
      0x20 ≤ d.toNat := by
    simp only [List.mem_cons, List.not_mem_nil, or_false] at h
    rcases h with rfl | rfl <;> assumption
  unfold escaped at member
  iterate 7
    split at member
    · exact pair (by decide) (by decide) member
  split at member
  · rename_i control
    simp only [List.mem_cons, List.not_mem_nil, or_false] at member
    rcases member with rfl | rfl | rfl | rfl | rfl | rfl
    · decide
    · decide
    · decide
    · decide
    · exact le_hexDigit (by omega)
    · exact le_hexDigit (by omega)
  · rename_i plain
    rw [List.mem_singleton] at member
    subst member
    omega

def string (content : List Char) : List Char := '"' :: content.flatMap escaped ++ ['"']

inductive Scalar where
  | string (content : String)
  | number (literal : String)
  | bool (flag : Bool)
  deriving DecidableEq, Repr

def Scalar.write : Scalar → List Char
  | .string content => Json.string content.toList
  | .number literal => literal.toList
  | .bool flag => (if flag then "true" else "false").toList

def member (name : String) (value : Scalar) : List Char :=
  Json.string name.toList ++ ':' :: ' ' :: value.write

def object (members : List (String × Scalar)) : String :=
  String.ofList ('\x7b' ::
    [',', ' '].intercalate (members.map fun (name, value) => member name value) ++ ['\x7d'])

end Reckoner.Json
