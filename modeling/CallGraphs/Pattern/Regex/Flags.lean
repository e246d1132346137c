import CallGraphs.Text.CaseFolding
import CallGraphs.Text.Classes

/-!
# Flags of regular expressions

How the characters of an expression are to be read: flags are switched on and
off by a word such as `i-s`, for a group or for the rest of one.
-/

namespace CallGraphs

namespace Regex

/-- The flags that are switched on. -/
structure Flags where
  /-- Letters stand for both their cases. -/
  anyCase : Bool := false
  /-- The marks for start and end stand for those of lines. -/
  lines : Bool := false
  /-- The dot stands for the end of a line too. -/
  dotAll : Bool := false
  /-- Classes and cases are those of Unicode. -/
  unicode : Bool := true
  /-- Blanks and comments do not count. -/
  spaced : Bool := false
  /-- Lines may also end with a carriage return. -/
  returns : Bool := false
  /-- Repetitions prefer fewer rounds to more. -/
  reluctant : Bool := false
deriving DecidableEq, Inhabited, Repr

namespace Flags

/-- The letters of flags. -/
def letters : List Char := ['i', 'm', 's', 'U', 'u', 'R', 'x']

/-- The flags with one switched on or off. -/
def switch (on : Bool) (flags : Flags) (letter : Char) : Flags :=
  match letter with
  | 'i' => { flags with anyCase := on }
  | 'm' => { flags with lines := on }
  | 's' => { flags with dotAll := on }
  | 'u' => { flags with unicode := on }
  | 'R' => { flags with returns := on }
  | 'x' => { flags with spaced := on }
  | 'U' => { flags with reluctant := on }
  | _ => flags

/-- A word of flags: each letter once, and one dash at most, which is not the last of the word. -/
def isWord (word : List Char) : Bool :=
  word.Nodup && word.all (fun c => c = '-' || c ∈ letters) && word.getLast? != some '-'

/-- The flags after a word that switches some on and, after a dash, some off. -/
def apply (flags : Flags) (word : List Char) : Flags :=
  let on := word.takeWhile (· ≠ '-')
  let off := word.dropWhile (· ≠ '-')
  off.foldl (switch false) (on.foldl (switch true) flags)

/-! ## What flags change -/

/-- A class with the other cases of its letters, if case does not count. -/
def withCases (flags : Flags) (set : CodeRanges) : CodeRanges :=
  if !flags.anyCase then set else if flags.unicode then set.anyCase else set.anyAsciiCase

/-- A class that may be negated.  A class that is not one of Unicode must be one of ASCII. -/
def settle (flags : Flags) (negated : Bool) (set : CodeRanges) : Option CodeRanges :=
  let set := (flags.withCases set).negatedIf negated
  if flags.unicode || set.isAscii then some set else none

/-- What the dot stands for. -/
def dot? (flags : Flags) : Option CodeRanges :=
  if !flags.unicode then none
  else if flags.dotAll then some .every
  else
    let ends := if flags.returns then CodeRanges.union (.only '\n') (.only '\r') else .only '\n'
    some ends.complement

/-- What a character stands for. -/
def literal (flags : Flags) (c : Char) : CodeRanges := flags.withCases (.only c)

/-- The classes that small letters after a backslash stand for; capitals stand for the rest. -/
def letterClasses : List (Char × CodeRanges) :=
  [('d', decimalDigits), ('s', blankCharacters), ('w', wordCharacters)]

/-- The class that a letter after a backslash stands for. -/
def letterClass? (flags : Flags) (c : Char) : Option CodeRanges := do
  let set ← letterClasses.lookup c.toLower
  let set := if flags.unicode then set else set.inter .ascii
  { flags with anyCase := false }.settle c.isUpper set

end Flags

end Regex

end CallGraphs
