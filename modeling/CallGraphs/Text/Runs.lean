import CallGraphs.Text.Numerals
import CallGraphs.Text.Ranges

/-!
# Tables of code points

A table that labels all code points in order.  It is written in words: a word
is a label and the number of code points in a row that have it, which is left
out when it is one.
-/

namespace CallGraphs

/-- Code points in a row that have one label. -/
structure CodeRun (α : Type) where
  label : α
  length : Nat
deriving DecidableEq, Inhabited, Repr

namespace CodeRun

/-- The run that a word stands for, if its label is known. -/
def ofWord? {α : Type} (label? : String → Option α) (word : String) : Option (CodeRun α) :=
  let (letters, digits) := word.toList.span Char.isAlpha
  (label? (String.ofList letters)).map fun label =>
    { label, length := if digits.isEmpty then 1 else decimalValue digits }

/-- The runs of a table that is written line by line. -/
def ofTable {α : Type} (label? : String → Option α) (lines : List String) : List (CodeRun α) :=
  lines.flatMap fun line => (line.splitOn " ").filterMap (ofWord? label?)

/-- The ranges of the runs with a label that is wanted; the first run starts at a code point. -/
def rangesFrom {α : Type} (wanted : α → Bool) (start : Nat) :
    List (CodeRun α) → List (Nat × Nat)
  | [] => []
  | run :: rest =>
    let next := start + run.length
    if wanted run.label then (start, next - 1) :: rangesFrom wanted next rest
    else rangesFrom wanted next rest

/-- The code points with a label that is wanted. -/
def ranges {α : Type} (runs : List (CodeRun α)) (wanted : α → Bool) : CodeRanges :=
  .ofList (rangesFrom wanted 0 runs)

end CodeRun

end CallGraphs
