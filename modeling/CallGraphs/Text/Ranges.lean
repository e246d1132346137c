/-!
# Ranges of characters

A class of characters is given as the list of its ranges of code points, in
ascending order and with gaps between them.  Classes are joined, met and
complemented range by range.
-/

namespace CallGraphs

/-- Inclusive ranges of code points, in ascending order. -/
abbrev CodeRanges := List (Nat × Nat)

namespace CodeRanges

/-- The last code point. -/
def lastCode : Nat := 0x10FFFF

/-- Whether a code point lies in one of the ranges; those above it are not looked at. -/
def containsCode : CodeRanges → Nat → Bool
  | [], _ => false
  | (low, high) :: rest, code => low ≤ code && (code ≤ high || containsCode rest code)

/-- Whether a character lies in one of the ranges. -/
def contains (ranges : CodeRanges) (c : Char) : Bool := ranges.containsCode c.toNat

/-! ## Building classes -/

/-- One character. -/
def only (c : Char) : CodeRanges := [(c.toNat, c.toNat)]

/-- Every code point. -/
def every : CodeRanges := [(0, lastCode)]

/-- The characters of ASCII. -/
def ascii : CodeRanges := [(0, 0x7F)]

/-- A range followed by ranges that start no earlier; those that touch it are taken into it. -/
def absorb (low high : Nat) : List (Nat × Nat) → CodeRanges
  | [] => [(low, high)]
  | (a, b) :: rest =>
    if a ≤ high + 1 then absorb low (max high b) rest else (low, high) :: absorb a b rest

/-- The class of some ranges in any order. -/
def ofList (ranges : List (Nat × Nat)) : CodeRanges :=
  match ranges.mergeSort fun a b => a.1 ≤ b.1 with
  | [] => []
  | (low, high) :: rest => absorb low high rest

/-! ## Set operations -/

/-- What lies in either class. -/
def union (a b : CodeRanges) : CodeRanges := ofList (a ++ b)

/-- What lies in no range, from a code point on. -/
def gapsFrom (start : Nat) : CodeRanges → CodeRanges
  | [] => if start ≤ lastCode then [(start, lastCode)] else []
  | (low, high) :: rest =>
    if start < low then (start, low - 1) :: gapsFrom (high + 1) rest
    else gapsFrom (high + 1) rest

/-- What does not lie in a class. -/
def complement (ranges : CodeRanges) : CodeRanges := gapsFrom 0 ranges

/-- What lies in both classes. -/
def inter (a b : CodeRanges) : CodeRanges := complement (union (complement a) (complement b))

/-- What lies in the first class and not in the second. -/
def diff (a b : CodeRanges) : CodeRanges := inter a (complement b)

/-- What lies in one of the classes and not in both. -/
def symmDiff (a b : CodeRanges) : CodeRanges := union (diff a b) (diff b a)

/-- Whether a class has no characters but those of ASCII. -/
def isAscii (ranges : CodeRanges) : Bool := ranges.all fun r => r.2 ≤ 0x7F

/-- The complement of a class if it is negated. -/
def negatedIf (negated : Bool) (ranges : CodeRanges) : CodeRanges :=
  if negated then complement ranges else ranges

end CodeRanges

end CallGraphs
