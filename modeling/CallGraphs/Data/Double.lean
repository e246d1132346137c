import CallGraphs.Text.Numerals

/-!
# Numbers in 64 bits

Numbers without a sign as they are stored in 64 bits: with 53 significant bits
and a binary exponent.  A number is rounded to the nearest one that can be
stored and, between two, to the even one.  What is too large is infinite.
-/

namespace CallGraphs

/-- A stored number: a mantissa times a power of two. -/
structure Double where
  mantissa : Nat
  exponent : Int
deriving DecidableEq, Inhabited, Repr

namespace Double

/-! ## Rounding -/

/-- The bits of a mantissa. -/
def mantissaBits : Nat := 53

/-- The least exponent. -/
def minExponent : Int := -1074

/-- The greatest exponent of a number that is not infinite. -/
def maxExponent : Int := 971

/-- A quotient rounded to the nearest whole number, or the even one of two. -/
def roundedQuotient (n d : Nat) : Nat :=
  let below := n / d
  let rest := n % d
  if d < 2 * rest || (d = 2 * rest && below % 2 = 1) then below + 1 else below

/-- A quotient as its numerator and denominator, times a power of two. -/
def shifted (n d : Nat) (power : Int) : Nat × Nat :=
  if 0 ≤ power then (n <<< power.toNat, d) else (n, d <<< (-power).toNat)

/-- The stored number nearest to a quotient times a power of two. -/
def nearest (n d : Nat) (power : Int) : Double :=
  if n = 0 then ⟨0, minExponent⟩
  else
    let bits : Int := n.log2 - d.log2
    let (a, b) := shifted n d (-bits)
    let bits := if a < b then bits - 1 else bits
    let exponent := max (bits + power + 1 - mantissaBits) minExponent
    let (a, b) := shifted n d (power - exponent)
    let mantissa := roundedQuotient a b
    if mantissa = 1 <<< mantissaBits then ⟨1 <<< (mantissaBits - 1), exponent + 1⟩
    else ⟨mantissa, exponent⟩

/-- The stored number nearest to a whole one. -/
def ofNat (n : Nat) : Double := nearest n 1 0

/-- Whether a number is zero. -/
def isZero (x : Double) : Bool := x.mantissa = 0

/-- Whether a number is beyond all that can be stored. -/
def isInfinite (x : Double) : Bool := maxExponent < x.exponent

/-! ## Arithmetic -/

/-- The product of two numbers. -/
def mul (x y : Double) : Double :=
  nearest (x.mantissa * y.mantissa) 1 (x.exponent + y.exponent)

/-- The quotient of two numbers, of which the second is not zero. -/
def div (x y : Double) : Double := nearest x.mantissa y.mantissa (x.exponent - y.exponent)

/-- The greatest power of ten that can be stored. -/
def maxPowerOfTen : Nat := 308

/-- A stored power of ten. -/
def powerOfTen (n : Nat) : Double := ofNat (Nat.pow 10 n)

/-! ## Decimals -/

/-- The stored number nearest to digits times a power of ten, if it is not infinite.  Nothing of the
number is looked at when its size alone tells. -/
def ofDecimal? (digits : List Char) (power : Int) : Option Double :=
  let significant := digits.dropWhile (· = '0')
  let magnitude := significant.length + power
  let n := decimalValue significant
  if significant.isEmpty || magnitude < -400 then some (ofNat 0)
  else if maxPowerOfTen + 1 < magnitude then none
  else
    let x :=
      if 0 ≤ power then ofNat (n * Nat.pow 10 power.toNat)
      else nearest n (Nat.pow 10 (-power).toNat) 0
    if x.isInfinite then none else some x

/-- A number of 64 bits and the power of ten it is multiplied by. -/
structure Scaled where
  significand : Nat := 0
  power : Int := 0
deriving DecidableEq, Inhabited, Repr

namespace Scaled

/-- The largest number of 64 bits. -/
def maxSignificand : Nat := 18446744073709551615

/-- The number with a digit more, if 64 bits hold it. -/
def push? (s : Scaled) (digit : Char) : Option Nat :=
  let next := s.significand * 10 + decimalValue [digit]
  if next ≤ maxSignificand then some next else none

/-- The number with the digits before the point.  From the first one on that there is no room for,
each of them is a factor of ten. -/
def pushWhole (s : Scaled) : List Char → Scaled
  | [] => s
  | digit :: digits =>
    match s.push? digit with
    | some significand => pushWhole { s with significand } digits
    | none => { s with power := s.power + (digits.length + 1) }

/-- The number with the digits after the point.  From the first one on that there is no room for,
they are left out. -/
def pushDecimals (s : Scaled) : List Char → Scaled
  | [] => s
  | digit :: digits =>
    match s.push? digit with
    | some significand => pushDecimals { significand, power := s.power - 1 } digits
    | none => s

/-- The number times a power of ten. -/
def scale (s : Scaled) (power : Int) : Scaled := { s with power := s.power + power }

/-- A number divided by powers of ten, by the greatest of them as often as it takes.  After three
times nothing is left of a number of 64 bits. -/
def divided (x : Double) : (rounds : Nat) → (power : Nat) → Double
  | 0, _ => ofNat 0
  | rounds + 1, power =>
    if power ≤ maxPowerOfTen then x.div (powerOfTen power)
    else divided (x.div (powerOfTen maxPowerOfTen)) rounds (power - maxPowerOfTen)

/-- The number when both its factors are stored before they are joined, unless it is infinite. -/
def toDouble? (s : Scaled) : Option Double :=
  let x := ofNat s.significand
  if x.isZero then some x
  else if s.power < 0 then some (divided x 3 (-s.power).toNat)
  else if maxPowerOfTen < s.power then none
  else
    let x := x.mul (powerOfTen s.power.toNat)
    if x.isInfinite then none else some x

end Scaled

end Double

end CallGraphs
