/-!
# Words

Counts and positions are words of 64 bits.
-/

namespace CallGraphs

/-- Words are the numbers below this one. -/
def wordLimit : Nat := 18446744073709551616

/-- A word as a signed number: the upper half of the words is negative. -/
def signedWord (n : Nat) : Int := Int.bmod n wordLimit

end CallGraphs
