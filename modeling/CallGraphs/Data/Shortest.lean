import CallGraphs.Data.Double

/-!
# Shortest decimals

The text of a stored number: the fewest digits that are read back as the same
number and, of those, the nearest to it.  Numbers that are neither large nor
small are written without an exponent.
-/

namespace CallGraphs

namespace Double

/-! ## Digits -/

/-- Decimal digits times a power of ten. -/
structure Decimal where
  digits : Nat
  power : Int
deriving DecidableEq, Inhabited, Repr

/-- Whether digits times a power of ten round to a number.  Four times the number and its
neighbours are compared, so that the points halfway are whole. -/
def Decimal.isRoundedTo (d : Decimal) (x : Double) : Bool :=
  let below := if x.mantissa = 1 <<< (mantissaBits - 1) && minExponent < x.exponent then 1 else 2
  let (n, m) :=
    if 0 ≤ d.power then (d.digits * Nat.pow 10 d.power.toNat, 1)
    else (d.digits, Nat.pow 10 (-d.power).toNat)
  let (a, b) := shifted (4 * n) m (-x.exponent)
  let low := (4 * x.mantissa - below) * b
  let high := (4 * x.mantissa + 2) * b
  if x.mantissa % 2 = 0 then low ≤ a && a ≤ high else low < a && a < high

/-- A number between its neighbours among the decimals with a power of ten: the nearer one first. -/
def neighbours (x : Double) (power : Int) : List Decimal :=
  let (n, m) := shifted x.mantissa 1 x.exponent
  let (n, m) :=
    if 0 ≤ power then (n, m * Nat.pow 10 power.toNat) else (n * Nat.pow 10 (-power).toNat, m)
  let below := n / m
  let nearer := roundedQuotient n m
  [⟨nearer, power⟩, ⟨if nearer = below then below + 1 else below, power⟩]

/-- The first decimal that rounds to a number, with powers of ten that go down from the given one
so many times. -/
def firstDecimal (x : Double) : (rounds : Nat) → (power : Int) → Decimal
  | 0, power => (neighbours x power).headD ⟨0, power⟩
  | rounds + 1, power =>
    match (neighbours x power).find? (·.isRoundedTo x) with
    | some d => d
    | none => firstDecimal x rounds (power - 1)

/-- The digits that are always enough. -/
def maxDigits : Nat := 17

/-- The least power of ten above a number, or the one below it. -/
def magnitude (x : Double) : Int :=
  let (n, m) := shifted x.mantissa 1 x.exponent
  ((toString n).length : Int) - (toString m).length + 1

/-- The shortest decimal that is read back as a number. -/
def shortest (x : Double) : Decimal := firstDecimal x (maxDigits + 2) (magnitude x)

/-! ## Text -/

/-- The numbers of digits before the point, or of zeros after it, up to which there is no
exponent. -/
def maxPlaces : Int := 16

/-- The least place of the first digit that is written without an exponent. -/
def minPlaces : Int := -4

/-- The text of a decimal with a first digit that is not zero. -/
def Decimal.text (d : Decimal) : String :=
  let digits := (toString d.digits).toList
  let significant := (digits.reverse.dropWhile (· = '0')).reverse
  let places := digits.length + d.power
  let zeros (n : Int) : List Char := List.replicate n.toNat '0'
  let chars :=
    if significant.length ≤ places && places ≤ maxPlaces then
      significant ++ zeros (places - significant.length) ++ ['.', '0']
    else if 0 < places && places ≤ maxPlaces then
      significant.take places.toNat ++ '.' :: significant.drop places.toNat
    else if minPlaces ≤ places && places ≤ 0 then '0' :: '.' :: zeros (-places) ++ significant
    else
      let fraction := if significant.length < 2 then [] else '.' :: significant.drop 1
      significant.take 1 ++ fraction ++ 'e' :: (toString (places - 1)).toList
  String.ofList chars

/-- The text of a number. -/
def text (x : Double) : String := if x.isZero then "0.0" else x.shortest.text

end Double

end CallGraphs
