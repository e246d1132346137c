import CallGraphs.Json.Basic

/-!
# Writing JSON

Two layouts: `Json.compact` on one line, and `Json.pretty` with one item a
line and two blanks for each level.  An empty array or object is written
without a line break, and what is unusable as nothing.
-/

namespace CallGraphs

namespace Json

/-- One hexadecimal digit, lower case. -/
def hexDigit (n : Nat) : Char := Nat.digitChar n

/--
A character inside a string.  Quotes and backslashes are escaped, the control
characters that have a short form take it, and the others are given by
number; all else stands for itself.
-/
def escape (c : Char) : String :=
  match c with
  | '"' => "\\\""
  | '\\' => "\\\\"
  | '\n' => "\\n"
  | '\r' => "\\r"
  | '\t' => "\\t"
  | c =>
    if c.toNat = 8 then "\\b"
    else if c.toNat = 12 then "\\f"
    else if c.toNat < 32 then
      "\\u00" ++ String.ofList [hexDigit (c.toNat / 16), hexDigit (c.toNat % 16)]
    else String.singleton c

/-- A text as a string literal. -/
def quoted (text : String) : String :=
  "\"" ++ String.join (text.toList.map escape) ++ "\""

mutual

/-- The pieces of the text on one line. -/
def compactPieces : Json → List String
  | null => ["null"]
  | unusable => ["null"]
  | bool value => [if value then "true" else "false"]
  | natural value => [toString value]
  | decimal literal => [literal]
  | string value => [quoted value]
  | array items => "[" :: compactItems items ++ ["]"]
  | object members => "\x7b" :: compactMembers members ++ ["\x7d"]

/-- The items of an array, with commas between them. -/
def compactItems : List Json → List String
  | [] => []
  | [item] => compactPieces item
  | item :: rest => compactPieces item ++ "," :: compactItems rest

/-- The members of an object, with commas between them. -/
def compactMembers : List (String × Json) → List String
  | [] => []
  | [(name, value)] => quoted name :: ":" :: compactPieces value
  | (name, value) :: rest =>
    quoted name :: ":" :: compactPieces value ++ "," :: compactMembers rest

end

/-- The value on one line. -/
def compact (j : Json) : String := String.join (compactPieces j)

/-- A line break, and the blanks before a line of some level. -/
def newline (level : Nat) : String := "\n" ++ String.ofList (List.replicate (2 * level) ' ')

mutual

/-- The pieces of the text over several lines, for a value at some level. -/
def prettyPieces (level : Nat) : Json → List String
  | array (item :: rest) =>
    "[" :: prettyItems (level + 1) (item :: rest) ++ [newline level, "]"]
  | object (member :: rest) =>
    "\x7b" :: prettyMembers (level + 1) (member :: rest) ++ [newline level, "\x7d"]
  | array [] => ["[]"]
  | object [] => ["\x7b\x7d"]
  | null => ["null"]
  | unusable => ["null"]
  | bool value => [if value then "true" else "false"]
  | natural value => [toString value]
  | decimal literal => [literal]
  | string value => [quoted value]

/-- The items of an array, one a line. -/
def prettyItems (level : Nat) : List Json → List String
  | [] => []
  | [item] => newline level :: prettyPieces level item
  | item :: rest =>
    newline level :: prettyPieces level item ++ "," :: prettyItems level rest

/-- The members of an object, one a line. -/
def prettyMembers (level : Nat) : List (String × Json) → List String
  | [] => []
  | [(name, value)] => newline level :: quoted name :: ": " :: prettyPieces level value
  | (name, value) :: rest =>
    newline level :: quoted name :: ": " :: prettyPieces level value ++
      "," :: prettyMembers level rest

end

/-- The value over several lines. -/
def pretty (j : Json) : String := String.join (prettyPieces 0 j)

end Json

end CallGraphs
