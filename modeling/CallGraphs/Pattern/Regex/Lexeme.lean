import CallGraphs.Pattern.Regex
import CallGraphs.Pattern.Regex.Flags
import CallGraphs.Pattern.Regex.Property
import CallGraphs.Text.Numerals

/-!
# Pieces of regular expressions

Readers for what stands by itself in an expression: characters, escapes and
the numbers of a repetition.  A reader gives what it read and the rest.  When
an expression is spaced, blanks and comments may stand inside of these pieces
too, and a comment goes from a hash to the end of its line.
-/

namespace CallGraphs

namespace Regex

/-- A reader of the front of an expression: what it read, and the rest. -/
abbrev Reader (α : Type) := List Char → Option (α × List Char)

/-! ## Blanks -/

/-- The text without the blanks and comments in front. -/
def skipBlanks (inComment : Bool) : List Char → List Char
  | [] => []
  | c :: rest =>
    if inComment then skipBlanks (c ≠ '\n') rest
    else if c = '#' then skipBlanks true rest
    else if isBlank c then skipBlanks false rest
    else c :: rest

/-- The text without what does not count in front. -/
def Flags.skip (flags : Flags) (cs : List Char) : List Char :=
  if flags.spaced then skipBlanks false cs else cs

/-- The next characters that are accepted, without what does not count; there may be a limit to
their number. -/
def Flags.gather (flags : Flags) (accepts : Char → Bool) (limit : Option Nat) (inComment : Bool) :
    List Char → List Char × List Char
  | [] => ([], [])
  | c :: rest =>
    if inComment then flags.gather accepts limit (c ≠ '\n') rest
    else if flags.spaced && c = '#' then flags.gather accepts limit true rest
    else if flags.spaced && isBlank c then flags.gather accepts limit false rest
    else if limit != some 0 && accepts c then
      let (others, rest) := flags.gather accepts (limit.map (· - 1)) false rest
      (c :: others, rest)
    else ([], c :: rest)

/-! ## Escapes -/

/-- What stands for one character or for one place. -/
inductive Primitive where
  | char (c : Char)
  | set (set : CodeRanges)
  | place (place : Place)
deriving Inhabited, Repr

/-- The characters that a backslash and a letter stand for. -/
def controlLetters : List (Char × Char) :=
  [('a', '\x07'), ('f', '\x0c'), ('n', '\n'), ('r', '\r'), ('t', '\t'), ('v', '\x0b')]

/-- The one character that a character after a backslash stands for: a control character, or
itself if it is in ASCII and means nothing else. -/
def escapedChar? (c : Char) : Option Char :=
  match controlLetters.lookup c with
  | some control => some control
  | none => if c.toNat < 0x80 && !c.isAlphanum && c ≠ '<' && c ≠ '>' then some c else none

/-- Whether a character is a hexadecimal digit. -/
def isHexDigit (c : Char) : Bool := (hexValue c).isSome

/--
The character with a number in hexadecimal digits: any number of them between
braces, or as many as the letter in front says.  Two digits are one byte,
which outside of Unicode has to be in ASCII.
-/
def hexEscape (flags : Flags) (digits : Nat) : Reader Char := fun cs =>
  match flags.skip cs with
  | '\x7b' :: rest =>
    match flags.gather isHexDigit none false rest with
    | ([], _) => none
    | (found, '\x7d' :: rest) => ((hexNumber found).bind charWithCode?).map (·, rest)
    | _ => none
  | rest => do
    let (found, rest) := flags.gather isHexDigit (some digits) false rest
    if found.length ≠ digits then none
    let c ← (hexNumber found).bind charWithCode?
    if !flags.unicode && digits = 2 && 0x80 ≤ c.toNat then none
    return (c, rest)

/-- The names of places that have to do with words. -/
def wordPlaces : List (String × WordPlace) :=
  [("start", .start), ("end", .finish), ("start-half", .startHalf), ("end-half", .finishHalf)]

/-- A place where a word starts or ends, which may be narrowed down between braces; braces that
hold no name are left to what follows. -/
def wordEscape (flags : Flags) : Reader WordPlace := fun cs =>
  let isNamePart (c : Char) : Bool := c.isAlpha || c = '-'
  match cs with
  | '\x7b' :: rest =>
    match flags.skip rest with
    | [] => none
    | c :: rest =>
      if isNamePart c then
        match flags.gather isNamePart none false (c :: rest) with
        | (name, '\x7d' :: rest) => (wordPlaces.lookup (String.ofList name)).map (·, rest)
        | _ => none
      else some (.edge, cs)
  | _ => some (.edge, cs)

/-- A class named by a property: one letter, or a text between braces.  There are such classes only
in Unicode. -/
def propertyEscape (flags : Flags) (negated : Bool) : Reader CodeRanges := fun cs => do
  let (set, rest) ←
    match flags.skip cs with
    | [] | '\\' :: _ => none
    | '\x7b' :: rest =>
      match flags.gather (· ≠ '\x7d') none false rest with
      | (name, '\x7d' :: rest) => (classOfText? (String.ofList name)).map (·, rest)
      | _ => none
    | c :: rest => (classOfName? c.toString).map (·, flags.skip rest)
  if flags.unicode then (flags.settle negated set).map (·, rest) else none

/-- What stands after a backslash. -/
def escape (flags : Flags) : Reader Primitive
  | [] => none
  | c :: rest =>
    let word (place : WordPlace) : Primitive := .place (.word place !flags.unicode)
    match c with
    | 'x' => (hexEscape flags 2 rest).map fun (c, rest) => (.char c, rest)
    | 'u' => (hexEscape flags 4 rest).map fun (c, rest) => (.char c, rest)
    | 'U' => (hexEscape flags 8 rest).map fun (c, rest) => (.char c, rest)
    | 'p' => (propertyEscape flags false rest).map fun (set, rest) => (.set set, rest)
    | 'P' => (propertyEscape flags true rest).map fun (set, rest) => (.set set, rest)
    | 'b' => (wordEscape flags rest).map fun (place, rest) => (word place, rest)
    | 'B' => some (word .noEdge, rest)
    | '<' => some (word .start, rest)
    | '>' => some (word .finish, rest)
    | 'A' => some (.place .textStart, rest)
    | 'z' => some (.place .textEnd, rest)
    | _ =>
      match flags.letterClass? c with
      | some set => some (.set set, rest)
      | none => (escapedChar? c).map fun c => (.char c, rest)

/-! ## Repetitions -/

/-- A number that a repetition may be given, with the blanks around it. -/
def count (flags : Flags) : List Char → Option Nat × List Char := fun cs =>
  let cs := cs.dropWhile isBlank
  let (digits, rest) := flags.gather Char.isDigit none false cs
  let n := decimalValue digits
  (if digits.isEmpty || 0xFFFFFFFF < n then none else some n, rest.dropWhile isBlank)

/-- A repetition with the question mark after it, if there is one: it turns the preference of the
flags for more rounds or fewer. -/
def preferred (flags : Flags) (times : Times) : List Char → Times × List Char
  | '?' :: rest => ({ times with greedy := flags.reluctant }, rest)
  | cs => ({ times with greedy := !flags.reluctant }, cs)

/-- A repetition between braces, after the opening one. -/
def bounds (flags : Flags) : Reader Times := fun cs => do
  let (least, cs) := count flags (flags.skip cs)
  let least ← least
  let (times, cs) ←
    match cs with
    | ',' :: rest =>
      match flags.skip rest with
      | '\x7d' :: rest => some (({ least, most := none } : Times), '\x7d' :: rest)
      | rest =>
        let (most, rest) := count flags rest
        most.bind fun most => if least ≤ most then some ({ least, most }, rest) else none
    | _ => some ({ least, most := least }, cs)
  match cs with
  | '\x7d' :: rest => some (preferred flags times (flags.skip rest))
  | _ => none

end Regex

end CallGraphs
