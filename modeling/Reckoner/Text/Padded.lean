/-! Digits with zeros in front of them, up to a least width. -/
namespace Reckoner.Text

def padded (width : Nat) (digits : List Char) : List Char :=
  List.replicate (width - digits.length) '0' ++ digits

theorem length_padded (width : Nat) (digits : List Char) :
    (padded width digits).length = max width digits.length := by
  rw [padded, List.length_append, List.length_replicate]
  omega

def decimal (width n : Nat) : List Char := padded width (Nat.toDigits 10 n)

def hexadecimal (width n : Nat) : List Char := padded width (Nat.toDigits 16 n)

end Reckoner.Text
