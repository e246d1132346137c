import CallGraphs.Config.Toml.Scalar
import CallGraphs.Config.Toml.Table

/-!
# Reading TOML

A reader for the configuration language: tables of keys and values, one pair
to a line.  A document is read as the JSON value of its outermost table.
-/

namespace CallGraphs

namespace Toml

open Json.Parser (Reader)

/-- How many arrays and inline tables may be open at one time, and how many names a key may
have. -/
def maxDepth : Nat := 79

/-! ## Blanks and line ends -/

/-- The text without the comment in front, if there is one. -/
def skipComment : List Char → List Char
  | '#' :: rest => rest.dropWhile isPlain
  | cs => cs

/-- Reads blanks and a comment up to the end of a line or of the text. -/
def lineEnd : Reader Unit := fun cs =>
  match skipComment (skipBlanks cs) with
  | [] => some ((), [])
  | '\n' :: rest => some ((), rest)
  | _ => none

/-- The text without blanks, comments and line ends in front, if there are at most so many. -/
def skipLines : Nat → List Char → List Char
  | 0, cs => cs
  | bound + 1, cs =>
    match lineEnd cs with
    | some ((), rest) => if rest.isEmpty then [] else skipLines bound rest
    | none => skipBlanks cs

/-! ## Keys -/

/-- A character of a key without quotes. -/
def isKeyChar (c : Char) : Bool := c.isAlphanum || c = '_' || c = '-'

/-- Reads one name of a key. -/
def simpleKey : Reader String
  | '"' :: rest => basicTail [] rest
  | '\'' :: rest => literalTail rest
  | cs =>
    match cs.span isKeyChar with
    | ([], _) => none
    | (name, rest) => some (String.ofList name, rest)

/-- Reads names with dots between them, at most so many. -/
def dottedKey : Nat → Reader (List String)
  | 0, _ => none
  | bound + 1, cs => do
    let (name, rest) ← simpleKey (skipBlanks cs)
    match skipBlanks rest with
    | '.' :: rest => do
      let (names, rest) ← dottedKey bound rest
      some (name :: names, rest)
    | rest => some ([name], rest)

/-- Reads a key. -/
def key : Reader (List String) := dottedKey maxDepth

/-! ## Values -/

/-- Reads a key, an equals sign and a value. -/
def pair (value : Reader Json) : Reader (List String × Json) := fun cs => do
  let (names, rest) ← key cs
  match rest with
  | '=' :: rest => do
    let (v, rest) ← value (skipBlanks rest)
    some ((names, v), rest)
  | _ => none

/-- Reads the items of an array up to its closing bracket, at most so many. -/
def items (value : Reader Json) : Nat → Reader (List Json)
  | 0, _ => none
  | bound + 1, cs =>
    match skipLines (bound + 1) cs with
    | ']' :: rest => some ([], rest)
    | cs => do
      let (item, rest) ← value cs
      match skipLines (bound + 1) rest with
      | ']' :: rest => some ([item], rest)
      | ',' :: rest => do
        let (others, rest) ← items value bound rest
        some (item :: others, rest)
      | _ => none

/-- Reads the pairs of an inline table up to its closing brace, at most so many. -/
def pairs (value : Reader Json) : Nat → Entries → Reader Entries
  | 0, _, _ => none
  | bound + 1, entries, cs => do
    let ((names, v), rest) ← pair value (skipBlanks cs)
    let entries ← entries.assign true names v
    match skipBlanks rest with
    | '\x7d' :: rest => some (entries, rest)
    | ',' :: rest => pairs value bound entries rest
    | _ => none

/-- Reads a value in which at most `depth` arrays and inline tables are open at one time. -/
def value : (depth : Nat) → Reader Json
  | 0, cs => scalar cs
  | depth + 1, cs =>
    match cs with
    | '[' :: rest => (items (value depth) rest.length rest).map fun (l, rest) => (.array l, rest)
    | '\x7b' :: rest =>
      match skipBlanks rest with
      | '\x7d' :: rest => some (.object [], rest)
      | rest =>
        (pairs (value depth) rest.length [] rest).map fun (entries, rest) =>
          (.object (membersOf entries), rest)
    | cs => scalar cs

/-! ## Documents -/

/-- A document while it is read: what is known, and the table that pairs go to. -/
structure Document where
  entries : Entries := []
  current : List String := []
deriving Inhabited

namespace Document

/-- Reads the name of a table up to some brackets, and opens the table. -/
def header (doc : Document) (inList : Bool) (close : List Char) : Reader Document := fun cs => do
  let (names, rest) ← key cs
  let ((), rest) ← Json.Parser.expect close rest
  let entries ← doc.entries.openTable inList names
  some ({ entries, current := names }, rest)

/-- Reads a line that is not empty. -/
def line (doc : Document) : Reader Document
  | '[' :: '[' :: rest => doc.header true [']', ']'] rest
  | '[' :: rest => doc.header false [']'] rest
  | cs => do
    let ((names, v), rest) ← pair (value maxDepth) cs
    let entries ← doc.entries.within (Entries.assign · true names v) doc.current
    some ({ doc with entries }, rest)

/-- Reads the lines of a document, at most so many. -/
def lines : Nat → Document → List Char → Option Document
  | 0, doc, cs => if cs.isEmpty then some doc else none
  | bound + 1, doc, cs =>
    match skipLines (bound + 1) cs with
    | [] => some doc
    | cs => do
      let (doc, rest) ← doc.line cs
      let ((), rest) ← lineEnd rest
      doc.lines bound rest

end Document

/-- A text without the carriage return before each of its line feeds. -/
def withoutReturns (cs : List Char) : List Char :=
  (cs.zip (cs.drop 1 ++ ['\x00'])).filterMap fun (c, next) =>
    if c = '\r' && next = '\n' then none else some c

/-- The outermost table of a document. -/
def parse? (text : String) : Option Json := do
  let cs := withoutReturns text.toList
  let cs := if cs.head? = some '\ufeff' then cs.drop 1 else cs
  let doc ← Document.lines (cs.length + 1) {} cs
  return .object (membersOf doc.entries)

end Toml

end CallGraphs
