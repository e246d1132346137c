import CallGraphs.Pattern.Regex

/-!
# Simple forms of regular expressions

Expressions are put together in a simple form.  A sequence is a chain without
empty parts, and so are alternatives; characters to choose from become one
class; what all alternatives start with is written once before them; and a
repetition of the empty text is no repetition.
-/

namespace CallGraphs

namespace Regex

variable {α : Type}

/-! ## Sequences -/

/-- The parts that stand one after the other. -/
def parts : Regex α → List (Regex α)
  | empty => []
  | seq first second => first.parts ++ second.parts
  | r => [r]

/-- One part after the other. -/
def chain : List (Regex α) → Regex α
  | [] => empty
  | [r] => r
  | r :: rest => seq r (chain rest)

/-- Simple expressions one after the other. -/
def joined (rs : List (Regex α)) : Regex α := chain (rs.flatMap parts)

/-! ## Lengths -/

namespace Atom

/-- The length of the shortest match of an atom, if it has one. -/
def shortest : Atom → Option Nat
  | one [] => none
  | one _ => some 1
  | place _ => some 0

/-- Whether an atom takes no character. -/
def isEmpty : Atom → Bool
  | one _ => false
  | place _ => true

end Atom

/-- The length of the shortest match of an expression, if all its parts have matches. -/
def shortest : Regex Atom → Option Nat
  | empty => some 0
  | atom a => a.shortest
  | seq first second => do return (← first.shortest) + (← second.shortest)
  | alt left right => do return min (← left.shortest) (← right.shortest)
  | repeated body times => body.shortest.map (times.least * ·)
  | group body => body.shortest

/-- Whether an expression matches nothing but the empty text. -/
def isEmpty : Regex Atom → Bool
  | empty => true
  | atom a => a.isEmpty
  | seq first second => first.isEmpty && second.isEmpty
  | alt left right => left.isEmpty && right.isEmpty
  | repeated body times => body.isEmpty || times.most = some 0
  | group body => body.isEmpty

/-! ## Repetitions -/

/-- A simple expression so many times; the empty text is not repeated. -/
def manyTimes (r : Regex Atom) (times : Times) : Regex Atom :=
  let times :=
    if r.isEmpty then
      { times with least := min times.least 1, most := some (times.most.elim 1 (min · 1)) }
    else times
  if times.most = some 0 then empty
  else if times.least = 1 ∧ times.most = some 1 then r
  else repeated r times

/-! ## Alternatives -/

/-- The alternatives of an expression. -/
def alternatives : Regex α → List (Regex α)
  | alt left right => left.alternatives ++ right.alternatives
  | r => [r]

/-- One of some alternatives. -/
def choice : List (Regex Atom) → Regex Atom
  | [] => atom (.one [])
  | [r] => r
  | r :: rest => alt r (choice rest)

/-- The class that an expression is. -/
def asClass? : Regex Atom → Option CodeRanges
  | atom (.one set) => some set
  | _ => none

/-- A single character. -/
def isCharacter : Regex Atom → Bool
  | atom (.one [(low, high)]) => low = high
  | _ => false

/-- Whether the match of a group in an expression is kept. -/
def hasGroup : Regex Atom → Bool
  | empty => false
  | atom _ => false
  | seq first second => first.hasGroup || second.hasGroup
  | alt left right => left.hasGroup || right.hasGroup
  | repeated body _ => body.hasGroup
  | group _ => true

/-- One of some alternatives; a class if all of them are characters or all are classes. -/
def merged (rs : List (Regex Atom)) : Regex Atom :=
  match rs.mapM asClass? with
  | some sets =>
    if rs.all isCharacter || rs.all (!·.isCharacter) then atom (.one (.ofList sets.flatten))
    else choice rs
  | none => choice rs

/-- The elements of a sequence: characters next to each other as one, all else part by part. -/
def elements (r : Regex Atom) : List (List (Regex Atom)) :=
  r.parts.splitBy fun a b => a.isCharacter && b.isCharacter

/-- The elements that two sequences start with.  No two groups whose matches are kept are equal. -/
def sharedStart : (first second : List (List (Regex Atom))) → List (List (Regex Atom))
  | a :: first, b :: second =>
    if a = b && !a.any hasGroup then a :: sharedStart first second else []
  | _, _ => []

/-- The elements that all of several sequences start with. -/
def commonStart (sequences : List (List (List (Regex Atom)))) : List (List (Regex Atom)) :=
  match sequences with
  | [] => []
  | first :: others =>
    if sequences.all (2 ≤ ·.length) then others.foldl sharedStart first else []

/-- One of some simple expressions. -/
def anyOf (rs : List (Regex Atom)) : Regex Atom :=
  let rs := rs.flatMap alternatives
  match commonStart (rs.map elements) with
  | [] => merged rs
  | start =>
    let rests := rs.map fun r => chain (r.elements.drop start.length).flatten
    joined (start.flatten ++ [merged (rests.flatMap alternatives)])

end Regex

end CallGraphs
