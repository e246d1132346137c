import CallGraphs.Json.Parser

/-!
# Values of TOML without parts

Strings in four forms, numbers, dates and times, and truth values, as readers
of the front of a text.  The text has line feeds for line ends.
-/

namespace CallGraphs

namespace Toml

open Json.Parser (Reader)

/-! ## Strings -/

/-- A character that may stand in a comment or a string. -/
def isPlain (c : Char) : Bool := c = '\t' || (0x20 ≤ c.toNat && c.toNat ≠ 0x7F)

/-- A blank inside a line. -/
def isSpace (c : Char) : Bool := c = ' ' || c = '\t'

/-- The text without the blanks in front. -/
def skipBlanks (cs : List Char) : List Char := cs.dropWhile isSpace

/-- The characters that a backslash and a letter stand for. -/
def letterEscapes : List (Char × Char) :=
  [('"', '"'), ('\\', '\\'), ('b', '\x08'), ('f', '\x0c'), ('n', '\n'), ('r', '\r'), ('t', '\t')]

/-- The character that an escape stands for, after its backslash, and how many characters the
escape takes. -/
def escape? : List Char → Option (Char × Nat)
  | 'u' :: rest => ((hexNumber (rest.take 4)).bind charWithCode?).bind fun c =>
    if 4 ≤ rest.length then some (c, 5) else none
  | 'U' :: rest => ((hexNumber (rest.take 8)).bind charWithCode?).bind fun c =>
    if 8 ≤ rest.length then some (c, 9) else none
  | letter :: _ => (letterEscapes.lookup letter).map (·, 1)
  | [] => none

/-- Reads the rest of a string in double quotes; `read` holds what came before, reversed. -/
def basicTail (read : List Char) : Reader String
  | [] => none
  | c :: rest =>
    if c = '"' then some (String.ofList read.reverse, rest)
    else if c = '\\' then
      match escape? rest with
      | some (char, length) => basicTail (char :: read) (rest.drop length)
      | none => none
    else if isPlain c then basicTail (c :: read) rest
    else none
termination_by cs => cs.length
decreasing_by
  all_goals simp only [List.length_cons, List.length_drop]
  all_goals omega

/-- Reads the rest of a string in single quotes, in which every character stands for itself. -/
def literalTail : Reader String := fun cs =>
  match cs.span fun c => c ≠ '\'' && isPlain c with
  | (text, '\'' :: rest) => some (String.ofList text, rest)
  | _ => none

/--
Three quotes that end a string of several lines, and the rest.  Up to two
more of them belong to the string.
-/
def closing? (quote : Char) (cs : List Char) : Option (List Char × List Char) :=
  let quotes := cs.takeWhile (· = quote)
  if quotes.length < 3 then none
  else
    let inside := min (quotes.length - 3) 2
    some (List.replicate inside quote, cs.drop (inside + 3))

/-- Whether a text goes on, after blanks, on the next line. -/
def breaksLine (cs : List Char) : Bool := (skipBlanks cs).head? = some '\n'

/--
Reads the rest of a string of several lines in double quotes.  A backslash at
the end of a line takes away all blanks and line ends that follow; `trimming`
says that it has just done so.
-/
def longBasicTail (trimming : Bool) (read : List Char) : Reader String
  | [] => none
  | c :: rest =>
    if trimming && (isSpace c || c = '\n') then longBasicTail true read rest
    else if c = '"' then
      match closing? '"' (c :: rest) with
      | some (quotes, rest) => some (String.ofList (quotes ++ read).reverse, rest)
      | none => longBasicTail false (c :: read) rest
    else if c = '\\' then
      if breaksLine rest then longBasicTail true read rest
      else
        match escape? rest with
        | some (char, length) => longBasicTail false (char :: read) (rest.drop length)
        | none => none
    else if c = '\n' || isPlain c then longBasicTail false (c :: read) rest
    else none
termination_by cs => cs.length
decreasing_by
  all_goals simp only [List.length_cons, List.length_drop]
  all_goals omega

/-- Reads the rest of a string of several lines in single quotes. -/
def longLiteralTail (read : List Char) : Reader String
  | [] => none
  | c :: rest =>
    match closing? '\'' (c :: rest) with
    | some (quotes, rest) => some (String.ofList (quotes ++ read).reverse, rest)
    | none => if c = '\n' || isPlain c then longLiteralTail (c :: read) rest else none

/-- A text without the line end it starts with. -/
def dropNewline : List Char → List Char
  | '\n' :: rest => rest
  | cs => cs

/-- Reads a string. -/
def string : Reader String
  | '"' :: '"' :: '"' :: rest => longBasicTail false [] (dropNewline rest)
  | '\'' :: '\'' :: '\'' :: rest => longLiteralTail [] (dropNewline rest)
  | '"' :: rest => basicTail [] rest
  | '\'' :: rest => literalTail rest
  | _ => none

/-! ## Numbers -/

/-- Digits with single underscores between them, without the underscores. -/
def plainDigits (isDigit : Char → Bool) : List Char → Option (List Char)
  | [] => none
  | [c] => if isDigit c then some [c] else none
  | c :: '_' :: rest => if isDigit c then (plainDigits isDigit rest).map (c :: ·) else none
  | c :: rest => if isDigit c then (plainDigits isDigit rest).map (c :: ·) else none

/-- Digits before a point or of a whole number: no zero in front of others. -/
def wholeDigits (cs : List Char) : Option (List Char) :=
  match plainDigits Char.isDigit cs with
  | some ('0' :: _ :: _) => none
  | digits => digits

/-- The largest whole number; there is one more below zero. -/
def maxNumber : Nat := 9223372036854775807

/-- A whole number of 64 bits with its sign, of which zero has none. -/
def wholeNumber (negative : Bool) (n : Nat) : Option Json :=
  if negative && n ≠ 0 then if n ≤ maxNumber + 1 then some (.decimal ("-" ++ toString n)) else none
  else if n ≤ maxNumber then some (.natural n) else none

/-- The number that digits of a base stand for. -/
def baseNumber (base : Nat) (digits : List Char) : Option Json := do
  let plain ← plainDigits (fun c => (hexValue c).any (· < base)) digits
  wholeNumber false (← numberIn base plain)

/-- An exponent, after its letter. -/
def exponent (cs : List Char) : Option Json.Parser.Exponent :=
  match cs with
  | '+' :: digits => (plainDigits Char.isDigit digits).map ({ mark := ['e', '+'], digits := · })
  | '-' :: digits => (plainDigits Char.isDigit digits).map ({ mark := ['e', '-'], digits := · })
  | digits => (plainDigits Char.isDigit digits).map ({ mark := ['e'], digits := · })

/-- A number without its sign.  A number beyond all that can be stored is refused. -/
def unsignedNumber (negative : Bool) (cs : List Char) : Option Json :=
  let sign := if negative then "-" else ""
  if cs = "inf".toList || cs = "nan".toList then some (.decimal (sign ++ String.ofList cs))
  else
    let (mantissa, power) := cs.span fun c => c ≠ 'e' && c ≠ 'E'
    let (whole, tail) := mantissa.span (· ≠ '.')
    match wholeDigits whole, tail, power with
    | none, _, _ => none
    | some digits, [], [] => wholeNumber negative (decimalValue digits)
    | some digits, tail, power => do
      let decimals ← match tail with
        | [] => some []
        | _ :: digits => plainDigits Char.isDigit digits
      let exponent ← match power with
        | [] => some { mark := [], digits := [] }
        | _ :: digits => exponent digits
      let fraction := if decimals.isEmpty then [] else '.' :: decimals
      let _ ← Double.ofDecimal? (digits ++ decimals) (exponent.value - decimals.length)
      some (.decimal
        (sign ++ String.ofList (digits ++ fraction ++ exponent.mark ++ exponent.digits)))

/-- The number that a word stands for. -/
def number : List Char → Option Json
  | '0' :: 'x' :: digits => baseNumber 16 digits
  | '0' :: 'o' :: digits => baseNumber 8 digits
  | '0' :: 'b' :: digits => baseNumber 2 digits
  | '+' :: cs => unsignedNumber false cs
  | '-' :: cs => unsignedNumber true cs
  | cs => unsignedNumber false cs

/-- A character of a value without quotes and brackets. -/
def isWordChar (c : Char) : Bool := c.isAlphanum || c = '_' || c = '-' || c = '+' || c = '.'

/-- Reads a number or a truth value. -/
def word : Reader Json := fun cs =>
  let (text, rest) := cs.span isWordChar
  if text = "true".toList then some (.bool true, rest)
  else if text = "false".toList then some (.bool false, rest)
  else (number text).map (·, rest)

/-! ## Dates and times -/

/-- Reads a number of so many digits between two bounds. -/
def digitsBetween (length low high : Nat) : Reader Nat := fun cs =>
  let digits := cs.take length
  if digits.length = length && digits.all Char.isDigit then
    let n := decimalValue digits
    if low ≤ n && n ≤ high then some (n, cs.drop length) else none
  else none

/-- Reads one character. -/
def mark (wanted : Char) : Reader Unit
  | [] => none
  | c :: rest => if c = wanted then some ((), rest) else none

/-- The number of days of a month. -/
def daysOf (year month : Nat) : Nat :=
  if month = 2 then if year % 4 = 0 && (year % 100 ≠ 0 || year % 400 = 0) then 29 else 28
  else if month = 4 || month = 6 || month = 9 || month = 11 then 30
  else 31

/-- Reads a day. -/
def date : Reader Unit := fun cs => do
  let (year, cs) ← digitsBetween 4 0 9999 cs
  let ((), cs) ← mark '-' cs
  let (month, cs) ← digitsBetween 2 1 12 cs
  let ((), cs) ← mark '-' cs
  let (_, cs) ← digitsBetween 2 1 (daysOf year month) cs
  some ((), cs)

/-- Reads hours and minutes. -/
def hoursMinutes : Reader Unit := fun cs => do
  let (_, cs) ← digitsBetween 2 0 23 cs
  let ((), cs) ← mark ':' cs
  let (_, cs) ← digitsBetween 2 0 59 cs
  some ((), cs)

/-- Reads a time of day, which may go down to fractions of a second. -/
def time : Reader Unit := fun cs => do
  let ((), cs) ← hoursMinutes cs
  let ((), cs) ← mark ':' cs
  let (_, cs) ← digitsBetween 2 0 60 cs
  match cs with
  | '.' :: rest => do
    let (_, rest) ← Json.Parser.digits rest
    some ((), rest)
  | _ => some ((), cs)

/-- Reads how far a clock is from the universal one, if that is said. -/
def offset : Reader Unit := fun cs =>
  match cs with
  | c :: rest =>
    if c = 'Z' || c = 'z' then some ((), rest)
    else if c = '+' || c = '-' then hoursMinutes rest
    else some ((), cs)
  | [] => some ((), cs)

/-- Reads what follows a day: a time of that day, if there is one. -/
def timeOfDay : Reader Unit := fun cs =>
  match cs with
  | c :: rest =>
    if c = 'T' || c = 't' || (c = ' ' && rest.head?.any Char.isDigit) then do
      let ((), rest) ← time rest
      offset rest
    else some ((), cs)
  | [] => some ((), cs)

/-- Reads a day, a time or both. -/
def moment : Reader Unit := fun cs =>
  match date cs with
  | some ((), rest) => timeOfDay rest
  | none => time cs

/-- A day or a time as a value; nothing asks for its parts. -/
def momentValue : Json := .object [("moment", .null)]

/-- Reads a value without parts. -/
def scalar : Reader Json := fun cs =>
  match cs with
  | [] => none
  | c :: _ =>
    if c = '"' || c = '\'' then (string cs).map fun (text, rest) => (.string text, rest)
    else
      match moment cs with
      | some ((), rest) => some (momentValue, rest)
      | none => word cs

end Toml

end CallGraphs
