import CallGraphs.Pattern.Wildcard

/-!
# Search patterns with wildcards

In a search pattern `%` stands for any run of characters and `_` for any one
character.  Every other character stands for itself, ASCII letters in either
case.  Texts count up to their first NUL, and a pattern of more than
`Like.maxBytes` bytes is not tried.
-/

namespace CallGraphs

namespace Like

/-- The longest pattern that is tried. -/
def maxBytes : Nat := 50000

/-- Whether a pattern is too long to be tried. -/
def isTooLong (pattern : String) : Bool := maxBytes < pattern.utf8ByteSize

/-- The character that a character is compared as: the last two of the basic plane count as the
replacement character, and letters as small ones. -/
def compared (c : Char) : Char :=
  if c = '\ufffe' || c = '\uffff' then '\ufffd' else c.toLower

/-- The piece that a character of a pattern stands for. -/
def piece (c : Char) : Wildcard :=
  if c = '%' then .run
  else if c = '_' then .one fun _ => true
  else .one fun d => compared c = compared d

/-- The characters of a text before its first NUL. -/
def visible (text : String) : List Char := text.toList.takeWhile (· ≠ '\x00')

/-- Whether a pattern matches a text. -/
def isMatch (pattern text : String) : Bool :=
  !isTooLong pattern && Wildcard.isMatch ((visible pattern).map piece) (visible text)

/-- The pattern of the texts that contain a text; one with wildcards is taken as it is. -/
def containing (text : String) : String :=
  if text.contains '%' then text else "%" ++ text ++ "%"

end Like

end CallGraphs
