/-!
# Digits

Digits of bases up to sixteen, and the numbers that they stand for.
-/

namespace ThreadCache.Text

def isDigit (c : Char) : Bool := '0' ≤ c && c ≤ '9'

/-- The value of a hexadecimal digit of either case. -/
def hexValue? (c : Char) : Option Nat :=
  if isDigit c then some (c.toNat - '0'.toNat)
  else if 'a' ≤ c ∧ c ≤ 'f' then some (c.toNat - 'a'.toNat + 10)
  else if 'A' ≤ c ∧ c ≤ 'F' then some (c.toNat - 'A'.toNat + 10)
  else none

/-- The value of a digit; zero for any other character. -/
def digitValue (c : Char) : Nat := (hexValue? c).getD 0

def isDigitIn (base : Nat) (c : Char) : Bool := (hexValue? c).any (· < base)

/-- The number that digits stand for in a base. -/
def numberIn (base : Nat) (digits : List Char) : Nat :=
  digits.foldl (fun n c => base * n + digitValue c) 0

end ThreadCache.Text
