import CallGraphs.Data.Shortest
import CallGraphs.Json.Basic

/-!
# Reading JSON

A reader for the strict format: one value with nothing but blanks around it,
no comments, no trailing commas and no control characters inside strings.
The reader recurses on the depth that is left; below that, arrays and objects
are only checked for their form.
-/

namespace CallGraphs

namespace Json

/-- The number of arrays and objects that may be open at one time. -/
def maxDepth : Nat := 127

namespace Parser

/-- A reader of the front of a text: what it read, and the rest. -/
abbrev Reader (α : Type) := List Char → Option (α × List Char)

/-! ## Blanks and literals -/

/-- The blanks between tokens. -/
def isBlank (c : Char) : Bool := c = ' ' || c = '\t' || c = '\n' || c = '\r'

/-- The text without the blanks in front. -/
def skipBlanks (cs : List Char) : List Char := cs.dropWhile isBlank

/-- Reads the given characters. -/
def expect (wanted : List Char) : Reader Unit := fun cs =>
  if wanted.isPrefixOf cs then some ((), cs.drop wanted.length) else none

/-! ## Numbers -/

/-- Reads digits, at least one. -/
def digits : Reader (List Char) := fun cs =>
  match cs.span Char.isDigit with
  | ([], _) => none
  | found => some found

/-- Reads the digits before the point: one zero, or digits that start with no zero. -/
def integerPart : Reader (List Char) := fun cs => do
  let (found, rest) ← digits cs
  match found with
  | '0' :: _ :: _ => none
  | _ => some (found, rest)

/-- Reads a point and the digits after it, if there is a point. -/
def fraction : Reader (List Char)
  | '.' :: cs => do
    let (found, rest) ← digits cs
    some ('.' :: found, rest)
  | cs => some ([], cs)

/-- An exponent: its letter, its sign if it has one, and its digits. -/
structure Exponent where
  mark : List Char
  digits : List Char
deriving DecidableEq, Repr

namespace Exponent

/-- The exponent as a number. -/
def value (e : Exponent) : Int :=
  let n : Int := decimalValue e.digits
  if '-' ∈ e.mark then -n else n

end Exponent

/-- Reads an exponent, if there is one. -/
def exponent : Reader Exponent
  | c :: cs =>
    if c = 'e' || c = 'E' then
      match cs with
      | '+' :: cs => do
        let (found, rest) ← digits cs
        some ({ mark := [c, '+'], digits := found }, rest)
      | '-' :: cs => do
        let (found, rest) ← digits cs
        some ({ mark := [c, '-'], digits := found }, rest)
      | cs => do
        let (found, rest) ← digits cs
        some ({ mark := [c], digits := found }, rest)
    else some ({ mark := [], digits := [] }, c :: cs)
  | [] => some ({ mark := [], digits := [] }, [])

/-- The greatest whole number below zero, without its sign, that is kept as it is. -/
def maxNegative : Nat := 9223372036854775808

/-- A whole number: one that fits in 64 bits is kept as it is. -/
def wholeNumber? (negative : Bool) (n : Nat) : Option Json :=
  if !negative && n ≤ Double.Scaled.maxSignificand then some (natural n)
  else if negative && n ≠ 0 && n ≤ maxNegative then some (decimal ("-" ++ toString n))
  else none

/-- Any other number, as the nearest one that can be stored. -/
def storedNumber (negative : Bool) (whole decimals : List Char) (power : Int) : Json :=
  let scaled := ((({} : Double.Scaled).pushWhole whole).pushDecimals decimals).scale power
  match scaled.toDouble? with
  | some x => decimal ((if negative then "-" else "") ++ x.text)
  | none => unusable

/-- Reads a number. -/
def number : Reader Json := fun cs => do
  let (negative, cs) := match cs with
    | '-' :: cs => (true, cs)
    | cs => (false, cs)
  let (whole, cs) ← integerPart cs
  let (point, cs) ← fraction cs
  let (power, cs) ← exponent cs
  let kept := if point.isEmpty && power.mark.isEmpty then wholeNumber? negative (decimalValue whole)
    else none
  some (kept.getD (storedNumber negative whole (point.drop 1) power.value), cs)

/-! ## Strings -/

/-- The value of four hexadecimal digits. -/
def hexUnit (a b c d : Char) : Option Nat := do
  some (((← hexValue a) * 16 + (← hexValue b)) * 256 + (← hexValue c) * 16 + (← hexValue d))

/-- A unit that starts a pair. -/
def isLeading (unit : Nat) : Bool := 0xD800 ≤ unit && unit < 0xDC00

/-- A unit that ends a pair. -/
def isTrailing (unit : Nat) : Bool := 0xDC00 ≤ unit && unit < 0xE000

/-- The character of a pair of units. -/
def pairChar (leading trailing : Nat) : Char :=
  Char.ofNat (0x10000 + (leading - 0xD800) * 0x400 + (trailing - 0xDC00))

/-- The character that a one-letter escape stands for. -/
def shortEscape : Char → Option Char
  | '"' => some '"'
  | '\\' => some '\\'
  | '/' => some '/'
  | 'b' => some (Char.ofNat 8)
  | 'f' => some (Char.ofNat 12)
  | 'n' => some '\n'
  | 'r' => some '\r'
  | 't' => some '\t'
  | _ => none

/-- Reads the rest of a string, after its opening quote, as code points and the units of
surrogate pairs; `read` holds those before, reversed. -/
def stringTail (read : List Nat) : Reader (List Nat)
  | [] => none
  | '"' :: rest => some (read.reverse, rest)
  | '\\' :: 'u' :: a :: b :: c :: d :: rest =>
    match hexUnit a b c d with
    | some unit => stringTail (unit :: read) rest
    | none => none
  | '\\' :: c :: rest =>
    match shortEscape c with
    | some c => stringTail (c.toNat :: read) rest
    | none => none
  | c :: rest => if c.toNat < 32 then none else stringTail (c.toNat :: read) rest

/-- The text of code points and units, unless half of a pair stands alone; `read` holds the
characters before, reversed. -/
def textOf (read : List Char) : List Nat → Option String
  | [] => some (String.ofList read.reverse)
  | unit :: rest =>
    if isTrailing unit then none
    else if isLeading unit then
      match rest with
      | second :: rest =>
        if isTrailing second then textOf (pairChar unit second :: read) rest else none
      | [] => none
    else textOf (Char.ofNat unit :: read) rest

/-- Reads a string, after its opening quote; it may stand for no text. -/
def stringBody : Reader (Option String) := fun cs =>
  (stringTail [] cs).map fun (codes, rest) => (textOf [] codes, rest)

/-! ## Values -/

/-- Reads a value that is neither an array nor an object. -/
def scalar : Reader Json := fun cs =>
  match cs with
  | '"' :: rest => do
    let (text, rest) ← stringBody rest
    some (text.elim unusable string, rest)
  | 'n' :: _ => do
    let (_, rest) ← expect "null".toList cs
    some (null, rest)
  | 't' :: _ => do
    let (_, rest) ← expect "true".toList cs
    some (bool true, rest)
  | 'f' :: _ => do
    let (_, rest) ← expect "false".toList cs
    some (bool false, rest)
  | _ => number cs

/--
Reads one or more elements with commas between them, up to the closing
bracket.  There are at most `bound` of them; the length of the text is always
enough.
-/
def separated {α : Type} (element : Reader α) (close : Char) : Nat → Reader (List α)
  | 0, _ => none
  | bound + 1, cs => do
    let (first, rest) ← element cs
    match skipBlanks rest with
    | c :: rest =>
      if c = close then some ([first], rest)
      else if c = ',' then do
        let (others, rest) ← separated element close bound rest
        some (first :: others, rest)
      else none
    | [] => none

/-- Reads the rest of a bracketed list, after its opening bracket. -/
def bracketed {α : Type} (element : Reader α) (close : Char) : Reader (List α) := fun cs =>
  match skipBlanks cs with
  | [] => none
  | c :: rest =>
    if c = close then some ([], rest)
    else separated element close (c :: rest).length (c :: rest)

/-- Reads the name of a member, and the colon after it. -/
def memberName : Reader (Option String) := fun cs => do
  match skipBlanks cs with
  | '"' :: rest => do
    let (name, rest) ← stringBody rest
    match skipBlanks rest with
    | ':' :: rest => some (name, rest)
    | _ => none
  | _ => none

/-- Reads a member of an object, given how to read its value. -/
def member (value : Reader Json) : Reader (Option (String × Json)) := fun cs => do
  let (name, rest) ← memberName cs
  let (value, rest) ← value rest
  some (name.map (·, value), rest)

/-- The object of some members, if all their names can be used. -/
def objectOf (members : List (Option (String × Json))) : Json :=
  (members.mapM id).elim unusable object

/-! ## Values nested too deep -/

/-- Reads closing brackets up to the next comma; what is left are the brackets still open. -/
def closings : (closers : List Char) → Reader (List Char)
  | [], cs => some ([], cs)
  | close :: outer, cs =>
    match skipBlanks cs with
    | [] => none
    | c :: rest =>
      if c = ',' then some (close :: outer, rest)
      else if c = close then closings outer rest
      else none

/--
Reads to the end of arrays and objects that are open, from before an item of
the innermost one; a fresh one may have no items.  Every step takes a
character, so the length of the text is enough fuel.
-/
def skipNested : (fuel : Nat) → (closers : List Char) → (fresh : Bool) → Reader Unit
  | _, [], _, cs => some ((), cs)
  | 0, _ :: _, _, _ => none
  | fuel + 1, close :: outer, fresh, cs => do
    if fresh && (skipBlanks cs).head? = some close then
      let (closers, rest) ← closings (close :: outer) cs
      skipNested fuel closers false rest
    else
      let cs ← if close = '\x7d' then (memberName cs).map (·.2) else some cs
      match skipBlanks cs with
      | '[' :: rest => skipNested fuel (']' :: close :: outer) true rest
      | '\x7b' :: rest => skipNested fuel ('\x7d' :: close :: outer) true rest
      | cs =>
        let (_, rest) ← scalar cs
        let (closers, rest) ← closings (close :: outer) rest
        skipNested fuel closers false rest

/-- Reads a value; what lies below `depth` open arrays and objects is unusable. -/
def value : (depth : Nat) → Reader Json
  | 0 => fun cs =>
    match skipBlanks cs with
    | '[' :: rest => (skipNested (rest.length + 1) [']'] true rest).map (unusable, ·.2)
    | '\x7b' :: rest => (skipNested (rest.length + 1) ['\x7d'] true rest).map (unusable, ·.2)
    | cs => scalar cs
  | depth + 1 => fun cs =>
    match skipBlanks cs with
    | '[' :: rest => do
      let (items, rest) ← bracketed (value depth) ']' rest
      some (array items, rest)
    | '\x7b' :: rest => do
      let (members, rest) ← bracketed (member (value depth)) '\x7d' rest
      some (objectOf members, rest)
    | cs => scalar cs

end Parser

/-- The value that a text holds. -/
def parse? (text : String) : Option Json :=
  match Parser.value maxDepth text.toList with
  | some (value, rest) => if (Parser.skipBlanks rest).isEmpty then some value else none
  | none => none

end Json

end CallGraphs
