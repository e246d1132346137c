/-!
# Writing strings of TOML

A string is written in the first form that needs no escapes: on one line in
double or in single quotes, then over several lines in either kind of quotes.
If every form needs some, it is written with escapes.
-/

namespace CallGraphs

namespace Toml

/-- A character inside double quotes; control characters without a letter are given by number. -/
def escaped (c : Char) : String :=
  match c with
  | '"' => "\\\""
  | '\\' => "\\\\"
  | '\n' => "\\n"
  | '\r' => "\\r"
  | '\t' => "\\t"
  | '\x08' => "\\b"
  | '\x0c' => "\\f"
  | c =>
    if c.toNat < 0x20 || c.toNat = 0x7F then
      let digits := [Nat.digitChar (c.toNat / 16), Nat.digitChar (c.toNat % 16)]
      "\\u00" ++ (String.ofList digits).toUpper
    else String.singleton c

/-- A character that needs an escape in every form.  A tab does not, and is given one all the same
in double quotes. -/
def isControl (c : Char) : Bool :=
  c ≠ '\t' && c ≠ '\n' && (c.toNat < 0x20 || c.toNat = 0x7F)

/-- The most characters of a kind that stand in a row. -/
def longestRun (kind : Char) (cs : List Char) : Nat :=
  (cs.foldl (fun (current, longest) c =>
    let current := if c = kind then current + 1 else 0
    (current, max current longest)) (0, 0)).2

/-- A text over several lines in double quotes, after `run` such quotes in a row: the third one in
a row gets an escape, and line ends stand for themselves. -/
def escapedLines (run : Nat) : List Char → List String
  | [] => []
  | c :: rest =>
    if c = '\n' then "\n" :: escapedLines 0 rest
    else if c = '"' && run < 2 then "\"" :: escapedLines (run + 1) rest
    else escaped c :: escapedLines 0 rest

/-- A text between quotes of several lines; if it has line ends, it starts on the next line. -/
def long (quotes : String) (cs : List Char) (inner : String) : String :=
  quotes ++ (if '\n' ∈ cs then "\n" else "") ++ inner ++ quotes

/-- A text as a string. -/
def quoted (text : String) : String :=
  let cs := text.toList
  let hasControl := cs.any isControl
  let basic := "\"" ++ String.join (cs.map escaped) ++ "\""
  let longBasic := long "\"\"\"" cs (String.join (escapedLines 0 cs))
  if !hasControl && '\n' ∉ cs && '"' ∉ cs && '\\' ∉ cs then basic
  else if !hasControl && '\n' ∉ cs && '\'' ∉ cs then "'" ++ text ++ "'"
  else if !hasControl && '\\' ∉ cs && longestRun '"' cs ≤ 2 then longBasic
  else if !hasControl && longestRun '\'' cs ≤ 2 then long "'''" cs text
  else if '\n' ∈ cs then longBasic
  else basic

end Toml

end CallGraphs
