import SourceArchive.Text.Basic

/-!
# Digits

The value of digits and of texts of digits, in any base up to sixteen.
-/

namespace SourceArchive

/-- The value of a digit; letters stand for ten to fifteen. -/
def digitValue? (c : Char) : Option Nat :=
  if c.isDigit then some (c.toNat - '0'.toNat)
  else if 'a' ≤ c ∧ c ≤ 'f' then some (c.toNat - 'a'.toNat + 10)
  else if 'A' ≤ c ∧ c ≤ 'F' then some (c.toNat - 'A'.toNat + 10)
  else none

def isDigitIn (base : Nat) (c : Char) : Bool := (digitValue? c).any (· < base)

/-- The value of a text of digits in a base; none if one of the characters is no digit in it. -/
def valueIn? (base : Nat) (digits : Text) : Option Nat :=
  digits.foldlM (fun n c => ((digitValue? c).filter (· < base)).map (n * base + ·)) 0

def decimalValue (digits : Text) : Nat := digits.foldl (fun n c => n * 10 + (c.toNat - '0'.toNat)) 0

def charOf? (n : Nat) : Option Char := if n.isValidChar then some (Char.ofNat n) else none

end SourceArchive
