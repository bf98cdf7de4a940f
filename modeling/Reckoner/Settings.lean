import Reckoner.Numeral

/-! The settings that evaluation and output depend on, and their defaults. -/
namespace Reckoner

structure Settings where
  /-- Longest accepted expression in characters; no bound unless positive. -/
  maxInputLength : Int := 0
  /-- Most factors that may be open at once, unless the setting has been emptied. -/
  maxNestingDepth : Option Int := some 100
  /-- Significant digits of printed numbers, unless the setting has been emptied. -/
  outputPrecision : Option Int := some 12
  /-- Workers of a batch that asks for none itself. -/
  poolSize : Int := 4
  deriving DecidableEq, Repr

/-- A limit on open factors that can be named once it is exceeded, or is never exceeded. -/
def isNameable (stack : Nat) (limit : Int) : Bool := stack < limit || Numeral.isWritable limit

theorem isNameable_zero (stack : Nat) : isNameable stack 0 = true := by
  rw [isNameable, show Numeral.isWritable 0 = true by decide, Bool.or_true]

structure Bounds where
  /-- Longest accepted expression in characters; no bound unless positive. -/
  maxLength : Int
  /-- Most factors that may be open at once. -/
  maxDepth : Int
  /-- Most factors for which there is room on the stack of the caller. -/
  stack : Nat
  nameable : isNameable stack maxDepth = true := by decide
  deriving DecidableEq, Repr

def Bounds.standard : Bounds := { maxLength := 0, maxDepth := 100, stack := 1000 }

/-- Who asks for an evaluation. Each caller has room of its own on the stack. -/
inductive Caller where
  | parser | evaluator | answer | worker | validation | oneShot | prompt | healthCheck
  deriving DecidableEq, Repr

/-- The bounds that the settings make for a caller; there are none without a limit on open factors
that can be named. -/
def Settings.bounds? (settings : Settings) (stack : Nat) : Option Bounds :=
  settings.maxNestingDepth.bind fun limit =>
    if nameable : isNameable stack limit = true then
      some ⟨settings.maxInputLength, limit, stack, nameable⟩
    else none

def programVersion : String := "1.0.0"

end Reckoner
