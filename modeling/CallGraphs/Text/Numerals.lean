/-!
# Digits and code points

The numbers that digits stand for, and the characters that numbers stand for.
-/

namespace CallGraphs

/-- The value of a list of decimal digits. -/
def decimalValue (digits : List Char) : Nat :=
  digits.foldl (fun n c => 10 * n + (c.toNat - '0'.toNat)) 0

/-- The value of a hexadecimal digit. -/
def hexValue (c : Char) : Option Nat :=
  if c.isDigit then some (c.toNat - '0'.toNat)
  else if 'a' ≤ c ∧ c ≤ 'f' then some (c.toNat - 'a'.toNat + 10)
  else if 'A' ≤ c ∧ c ≤ 'F' then some (c.toNat - 'A'.toNat + 10)
  else none

/-- The number that digits of a base up to sixteen stand for. -/
def numberIn (base : Nat) (digits : List Char) : Option Nat :=
  digits.foldlM (fun n d => (hexValue d).map (n * base + ·)) 0

/-- The number that hexadecimal digits stand for. -/
def hexNumber (digits : List Char) : Option Nat := numberIn 16 digits

/-- The character with a number, if there can be one. -/
def charWithCode? (code : Nat) : Option Char :=
  if code.isValidChar then some (Char.ofNat code) else none

end CallGraphs
