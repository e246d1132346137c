import CallGraphs.Pattern.Wildcard

/-!
# File patterns

A file pattern is a path in which names may have wildcards: `*` for any run of
characters, `?` for any one character, `[abc]` for a character of a set and
`[!abc]` for one outside it.  A name that is `**` stands for any number of
directories.
-/

namespace CallGraphs

namespace Glob

/-- The characters from one to another. -/
structure CharRange where
  low : Char
  high : Char
deriving DecidableEq, Inhabited, Repr

/-- A piece of a name in a pattern. -/
inductive Token where
  /-- This character. -/
  | char (c : Char)
  /-- Any character. -/
  | any
  /-- A character in one of the ranges. -/
  | within (ranges : List CharRange)
  /-- A character in none of the ranges. -/
  | except (ranges : List CharRange)
  /-- Any run of characters. -/
  | run
deriving DecidableEq, Inhabited, Repr

namespace Token

/-- The one character that a token stands for. -/
def char? : Token → Option Char
  | char c => some c
  | _ => none

/-- Whether a character lies in one of the ranges. -/
def lies (ranges : List CharRange) (c : Char) : Bool := ranges.any fun r => r.low ≤ c && c ≤ r.high

/-- What a token stands for. -/
def wildcard : Token → Wildcard
  | char c => .one (· = c)
  | any => .one fun _ => true
  | within ranges => .one (lies ranges)
  | except ranges => .one (!lies ranges ·)
  | run => .run

end Token

/-- Whether the tokens of a name match a name. -/
def matchesName (tokens : List Token) (name : String) : Bool :=
  Wildcard.isMatch (tokens.map Token.wildcard) name.toList

/-- A name of a pattern. -/
inductive Component where
  /-- Any number of directories. -/
  | anyDepth
  /-- One name. -/
  | named (tokens : List Token)
deriving DecidableEq, Inhabited, Repr

/-! ## Reading patterns -/

/-- The ranges of a set: three characters with a dash between are one, all others stand alone. -/
def charRanges : List Char → List CharRange
  | low :: '-' :: high :: rest => ⟨low, high⟩ :: charRanges rest
  | c :: rest => ⟨c, c⟩ :: charRanges rest
  | [] => []

/-- The characters of a set up to its closing bracket; the first one always belongs to it. -/
def setBody (cs : List Char) : Option (List Char) :=
  match cs with
  | [] => none
  | first :: rest => if ']' ∈ rest then some (first :: rest.takeWhile (· ≠ ']')) else none

/-- A set, after its opening bracket, and how many characters it takes. -/
def setToken : List Char → Option (Token × Nat)
  | '!' :: rest => (setBody rest).map fun body => (.except (charRanges body), body.length + 2)
  | cs => (setBody cs).map fun body => (.within (charRanges body), body.length + 1)

/-- The tokens of a name. -/
def tokens? : List Char → Option (List Token)
  | [] => some []
  | c :: rest =>
    match c with
    | '?' => (tokens? rest).map (.any :: ·)
    | '*' => if rest.head? = some '*' then none else (tokens? rest).map (.run :: ·)
    | '[' =>
      match setToken rest with
      | none => none
      | some (token, used) => (tokens? (rest.drop used)).map (token :: ·)
    | c => (tokens? rest).map (.char c :: ·)
termination_by cs => cs.length
decreasing_by
  all_goals simp only [List.length_cons, List.length_drop]
  all_goals omega

/-- A name of a pattern. -/
def component? (name : String) : Option Component :=
  if name = "**" then some .anyDepth else (tokens? name.toList).map .named

/-- Several components for any number of directories in a row are as good as one. -/
def collapse : List Component → List Component
  | .anyDepth :: rest =>
    match collapse rest with
    | .anyDepth :: rest => .anyDepth :: rest
    | rest => .anyDepth :: rest
  | component :: rest => component :: collapse rest
  | [] => []

/-- Whether a text has wildcards at all. -/
def isPattern (text : String) : Bool := text.any fun c => c = '*' || c = '?' || c = '['

/-- The text that tokens stand for, if they have no wildcards. -/
def literal? (tokens : List Token) : Option String :=
  (tokens.mapM Token.char?).map String.ofList

end Glob

/-- A file pattern. -/
structure Glob where
  /-- It starts at the root of all files. -/
  fromRoot : Bool
  components : List Glob.Component
  /-- It is for directories only. -/
  onlyDirectories : Bool
deriving DecidableEq, Inhabited, Repr

namespace Glob

/-- Reads a file pattern. -/
def parse? (text : String) : Option Glob := do
  let names := (String.ofList (text.toList.dropWhile (· = '/'))).splitOn "/"
  let names := if names.getLast? = some "" then names.dropLast else names
  return {
    fromRoot := text.startsWith "/"
    components := collapse (← names.mapM component?)
    onlyDirectories := text.endsWith "/" }

end Glob

end CallGraphs
