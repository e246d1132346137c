import CallGraphs.Pattern.Regex.Lexeme

/-!
# Classes between brackets

A class between brackets is a list of characters, ranges, named classes and
further classes in brackets.  Between such lists may stand `&&` for what both
have, `--` for what the first has and the second has not, and `~~` for what
just one of them has; of several such signs the first is taken first.  The
reader keeps the classes that are still open on a stack.
-/

namespace CallGraphs

namespace Regex

/-- A sign between two lists of a class. -/
inductive SetSign where
  | both
  | without
  | justOne
deriving DecidableEq, Inhabited, Repr

namespace SetSign

/-- What a sign makes of two classes. -/
def apply : SetSign → CodeRanges → CodeRanges → CodeRanges
  | both => CodeRanges.inter
  | without => CodeRanges.diff
  | justOne => CodeRanges.symmDiff

end SetSign

/-- A class and how deep the brackets, signs and lists in it are nested. -/
structure Operand where
  set : CodeRanges
  height : Nat
deriving DecidableEq, Inhabited, Repr

/-- A class that is still open. -/
structure Bracket where
  negated : Bool
  /-- What stands before the last sign, and the sign. -/
  before : Option (SetSign × Operand) := none
  /-- The ranges since the last sign, in any order. -/
  ranges : List (Nat × Nat) := []
  /-- How many items these ranges come from, and the greatest height of one. -/
  items : Nat := 0
  height : Nat := 0
deriving Inhabited, Repr

namespace Bracket

/-- The class with one more item. -/
def push (b : Bracket) (item : Operand) : Bracket :=
  { b with
    ranges := item.set.reverse ++ b.ranges
    items := b.items + 1
    height := max b.height item.height }

/-- The class with one more item that is not nested. -/
def pushSet (b : Bracket) (set : CodeRanges) : Bracket := b.push { set, height := 0 }

/-- What the class stands for as far as it is read, before it is negated. -/
def operand (flags : Flags) (b : Bracket) : Operand :=
  let last : Operand := {
    set := .ofList b.ranges
    height := if b.items ≤ 1 then b.height else b.height + 1 }
  match b.before with
  | none => last
  | some (sign, first) => {
    set := sign.apply (flags.withCases first.set) (flags.withCases last.set)
    height := max first.height last.height + 1 }

/-- The class after a sign. -/
def sign (flags : Flags) (sign : SetSign) (b : Bracket) : Bracket :=
  { negated := b.negated, before := some (sign, b.operand flags) }

/-- The class after its closing bracket. -/
def close? (flags : Flags) (b : Bracket) : Option Operand :=
  let inner := b.operand flags
  (flags.settle b.negated inner.set).map fun set => { set, height := inner.height + 1 }

/-- The start of a class, after its opening bracket.  Dashes stand for themselves here, and so
does a closing bracket that would leave the class empty. -/
def start (flags : Flags) (cs : List Char) : Bracket × List Char :=
  let cs := flags.skip cs
  let (negated, cs) :=
    match cs with
    | '^' :: rest => (true, flags.skip rest)
    | _ => (false, cs)
  match flags.gather (· = '-') none false cs with
  | ([], ']' :: rest) => (({ negated } : Bracket).pushSet (.only ']'), rest)
  | (dashes, rest) => (dashes.foldl (fun b dash => b.pushSet (.only dash)) { negated }, rest)

end Bracket

/-- The classes of ASCII characters that have names. -/
def namedClasses : List (String × CodeRanges) :=
  [("alnum", [(0x30, 0x39), (0x41, 0x5A), (0x61, 0x7A)]),
   ("alpha", [(0x41, 0x5A), (0x61, 0x7A)]),
   ("ascii", [(0x00, 0x7F)]),
   ("blank", [(0x09, 0x09), (0x20, 0x20)]),
   ("cntrl", [(0x00, 0x1F), (0x7F, 0x7F)]),
   ("digit", [(0x30, 0x39)]),
   ("graph", [(0x21, 0x7E)]),
   ("lower", [(0x61, 0x7A)]),
   ("print", [(0x20, 0x7E)]),
   ("punct", [(0x21, 0x2F), (0x3A, 0x40), (0x5B, 0x60), (0x7B, 0x7E)]),
   ("space", [(0x09, 0x0D), (0x20, 0x20)]),
   ("upper", [(0x41, 0x5A)]),
   ("word", [(0x30, 0x39), (0x41, 0x5A), (0x5F, 0x5F), (0x61, 0x7A)]),
   ("xdigit", [(0x30, 0x39), (0x41, 0x46), (0x61, 0x66)])]

/-- A named class, after an opening bracket: a colon, a caret if it is negated, the name, and a
colon with a closing bracket. -/
def namedClass : Reader (Bool × CodeRanges)
  | ':' :: cs =>
    let (negated, cs) :=
      match cs with
      | '^' :: rest => (true, rest)
      | _ => (false, cs)
    let name := cs.takeWhile (· ≠ ':')
    match cs.drop name.length with
    | ':' :: ']' :: rest =>
      (namedClasses.lookup (String.ofList name)).map fun set => ((negated, set), rest)
    | _ => none
  | _ => none

/-- What stands for a character or a class inside brackets. -/
def bracketPrimitive (flags : Flags) : Reader Primitive
  | [] => none
  | '\\' :: rest => escape flags rest
  | c :: rest => some (.char c, rest)

/-- The code point of a character that may stand inside brackets. -/
def bracketCode (flags : Flags) : Primitive → Option Nat
  | .char c => if flags.unicode || c.toNat < 0x80 then some c.toNat else none
  | _ => none

/-- Whether the first character of a text starts a range: a dash does, unless a bracket or another
dash follows. -/
def startsRange (flags : Flags) : List Char → Bool
  | '-' :: rest =>
    let next := (flags.skip rest).head?
    next != some ']' && next != some '-'
  | _ => false

/-- A character, a range or a class that an escape stands for, inside brackets. -/
def bracketItem (flags : Flags) : Reader CodeRanges := fun cs => do
  let (first, rest) ← bracketPrimitive flags cs
  let rest := flags.skip rest
  if startsRange flags rest then
    let (last, rest) ← bracketPrimitive flags (flags.skip (rest.drop 1))
    let low ← bracketCode flags first
    let high ← bracketCode flags last
    if low ≤ high then some ([(low, high)], rest) else none
  else
    match first with
    | .set set => some (set, rest)
    | _ => do
      let code ← bracketCode flags first
      some ([(code, code)], rest)

/--
Reads the rest of a class: the innermost one that is open, then those around
it.  Every step takes a character, so the length of the text is enough fuel.
-/
def bracketTail (flags : Flags) : Nat → Bracket → List Bracket → Reader Operand
  | 0, _, _, _ => none
  | fuel + 1, b, outer, cs =>
    match flags.skip cs with
    | [] => none
    | '[' :: rest =>
      match namedClass rest with
      | some ((negated, set), rest) =>
        match flags.settle negated set with
        | some set => bracketTail flags fuel (b.pushSet set) outer rest
        | none => none
      | none =>
        let (inner, rest) := Bracket.start flags rest
        bracketTail flags fuel inner (b :: outer) rest
    | ']' :: rest =>
      match b.close? flags, outer with
      | none, _ => none
      | some operand, [] => some (operand, rest)
      | some operand, parent :: outer => bracketTail flags fuel (parent.push operand) outer rest
    | '&' :: '&' :: rest => bracketTail flags fuel (b.sign flags .both) outer rest
    | '-' :: '-' :: rest => bracketTail flags fuel (b.sign flags .without) outer rest
    | '~' :: '~' :: rest => bracketTail flags fuel (b.sign flags .justOne) outer rest
    | cs =>
      match bracketItem flags cs with
      | some (set, rest) => bracketTail flags fuel (b.pushSet set) outer rest
      | none => none

/-- Reads a class, after its opening bracket. -/
def bracket (flags : Flags) (fuel : Nat) : Reader Operand := fun cs =>
  let (b, rest) := Bracket.start flags cs
  bracketTail flags fuel b [] rest

end Regex

end CallGraphs
