import CallGraphs.Data.LossyTable
import CallGraphs.Pattern.Regex.Simple
import CallGraphs.Text.Utf8

/-!
# The size of automata

A regular expression is searched for with an automaton that reads bytes, and
with another one that reads them backward.  Neither may take too much memory.
The automata are put together here only as far as their size asks for it: a
state is a number, and all that is known of a part is how it ends.
-/

namespace CallGraphs

namespace Regex

/-! ## Building -/

/-- The size of an automaton. -/
structure AutomatonSize where
  states : Nat := 0
  /-- The bytes that states hold beside their own. -/
  held : Nat := 0
deriving DecidableEq, Inhabited, Repr

namespace AutomatonSize

/-- The bytes of a state. -/
def stateBytes : Nat := 32

/-- The bytes of an automaton. -/
def bytes (size : AutomatonSize) : Nat := size.states * stateBytes + size.held

/-- The bytes that an automaton may have. -/
def maxBytes : Nat := 10485760

/-- Two parts together. -/
def plus (a b : AutomatonSize) : AutomatonSize :=
  { states := a.states + b.states, held := a.held + b.held }

end AutomatonSize

/-- A step in the making of an automaton, which stops when it gets too large. -/
abbrev Build := StateT AutomatonSize Option

namespace Build

/-- How a part ends: the state after it is what its last state leads to, or one more of those that
its last state branches to. -/
inductive Ending where
  | plain
  | branch
deriving DecidableEq, Inhabited, Repr

/-- The bytes of what a branch leads to. -/
def targetBytes : Nat := 4

/-- The bytes of a range of bytes and where it leads to. -/
def rangeBytes : Nat := 8

/-- Adds a part of which only the size matters; the number of its first state. -/
def add (part : AutomatonSize) : Build Nat := fun size =>
  let next := size.plus part
  if next.bytes ≤ AutomatonSize.maxBytes then some (size.states, next) else none

/-- Adds a state with so many bytes beside its own. -/
def addState (held : Nat) : Build Nat := add { states := 1, held }

/-- Adds so many states that hold nothing. -/
def addStates (states : Nat) : Build Unit := discard (add { states })

/-- Lets branches that are there lead to so many states more. -/
def addTargets (targets : Nat) : Build Unit := discard (add { held := targets * targetBytes })

/-- Lets the end of a part lead to a state. -/
def link : Ending → Build Unit
  | .plain => pure ()
  | .branch => addTargets 1

/-! ## Classes -/

/-- Reads one of some bytes. -/
def bytesOf (ranges : Nat) : Build Ending := do
  addStates 1
  let _ ← addState (ranges * rangeBytes)
  return .plain

/-- A node of the tree of byte sequences: the ranges that lead to finished nodes, and the last one,
whose node still grows. -/
structure Node where
  finished : List (Nat × Nat × Nat) := []
  last : Option (Nat × Nat) := none
deriving DecidableEq, Inhabited, Repr

namespace Node

/-- The node with its last range led to a finished node. -/
def finish (node : Node) (target : Nat) : Node :=
  match node.last with
  | some (low, high) => { finished := node.finished ++ [(low, high, target)] }
  | none => node

end Node

/-- The nodes that still grow, from the root on, and those that were finished. -/
structure Growth where
  nodes : List Node := [{}]
  table : LossyTable := { size := 10000 }

namespace Growth

/-- Finishes a node.  One that is known to be there already is not made again. -/
def share (table : LossyTable) (node : Node) : Build (LossyTable × Nat) := do
  let key := node.finished.flatMap fun (low, high, target) => [low, high, target]
  match table.find? key with
  | some id => return (table, id)
  | none =>
    let id ← addState (node.finished.length * rangeBytes)
    return (table.insert key id, id)

/-- Finishes the nodes below a depth, from the deepest on. -/
def close (g : Growth) (target depth : Nat) : Build Growth := do
  let (table, next) ← (g.nodes.drop (depth + 1)).foldrM
    (fun node (table, next) => share table (node.finish next)) (g.table, target)
  return { nodes := (g.nodes.take (depth + 1)).modify depth (·.finish next), table }

/-- Adds a sequence, which comes after all those before. -/
def push (g : Growth) (target : Nat) (sequence : Utf8.ByteRanges) : Build Growth := do
  let depth := Utf8.common (g.nodes.filterMap (·.last)) sequence
  let g ← g.close target depth
  match sequence.drop depth with
  | [] => return g
  | first :: rest =>
    return { g with
      nodes := g.nodes.modify depth ({ · with last := some first }) ++
        rest.map fun range => { last := some range } }

end Growth

/-- Reads a character as one of some sequences of bytes.  Sequences that end in the same way share
their ends. -/
def sequencesForward (sequences : List Utf8.ByteRanges) : Build Ending := do
  let target ← addState 0
  let g ← sequences.foldlM (fun g s => Growth.push g target s) {}
  let g ← g.close target 0
  let _ ← Growth.share g.table (g.nodes.headD {})
  return .plain

/-- Reads a character as one of some sequences of bytes, each from its end.  Sequences that start
in the same way share their starts. -/
def sequencesBackward (sequences : List Utf8.ByteRanges) : Build Ending := do
  let _ ← addState 0
  let target ← addState 0
  let _ ← sequences.foldlM (fun (table : LossyTable) s => do
    let (table, _) ← s.foldlM (fun ((table, next) : LossyTable × Nat) (low, high) => do
      match table.find? [next, low, high] with
      | some id => return (table, id)
      | none =>
        let id ← addState 0
        return (table.insert [next, low, high] id, id)) (table, target)
    addTargets 1
    return table) { size := 1000 }
  return .plain

/-- Reads a character of a class. -/
def characterOf (backward : Bool) (set : CodeRanges) : Build Ending := do
  match Utf8.sequences set with
  | [s] =>
    if s.all fun r => r.1 = r.2 then
      addStates s.length
      return .plain
    else if set.isAscii then bytesOf set.length
    else if backward then sequencesBackward [s]
    else sequencesForward [s]
  | sequences =>
    if set.isAscii then bytesOf set.length
    else if backward then sequencesBackward sequences
    else sequencesForward sequences

/-! ## Words -/

/-- The words up to each empty one, and those after the last. -/
def runs : List (List Nat) → List (List (List Nat))
  | [] => [[]]
  | [] :: words => [] :: runs words
  | word :: words =>
    match runs words with
    | run :: others => (word :: run) :: others
    | [] => [[word]]

/--
The size of a tree of words, none of them longer than the given depth.  A node
branches to its runs of words and, between them, to the end; a run reads the
first byte of its words, and those of one byte go on in one node.
-/
def treeSize : (depth : Nat) → List (List Nat) → AutomatonSize
  | 0, _ => {}
  | depth + 1, words =>
    if words.all (·.isEmpty) then {}
    else
      let words := if words.head? = some [] then [] :: words.dropWhile (·.isEmpty) else words
      let runs := runs words
      let targets := (runs.filter (!·.isEmpty)).length + (runs.length - 1)
      runs.foldl (fun size run =>
        let firsts : List Nat := (run.filterMap (·.head?)).eraseDups
        let ranges := if firsts.length < 2 then 0 else firsts.length
        let own : AutomatonSize :=
          if run.isEmpty then {} else { states := 1, held := ranges * rangeBytes }
        firsts.foldl (fun size first =>
          let below := run.filterMap fun word =>
            if word.head? = some first then some word.tail else none
          size.plus (treeSize depth below)) (size.plus own))
        { states := 1, held := targets * targetBytes }

/-- Reads one of some words. -/
def wordOf (backward : Bool) (words : List (List Nat)) : Build Ending := do
  let words := if backward then words.map List.reverse else words
  let depth := words.foldl (fun depth word => max depth word.length) 0
  let _ ← add (AutomatonSize.plus { states := 1 } (treeSize depth words))
  return .plain

/-! ## Repetitions -/

/-- So many parts more, after one that is there. -/
def moreCopies (part : Build Ending) : Nat → Ending → Build Ending
  | 0, ending => return ending
  | n + 1, ending => do
    link ending
    moreCopies part n (← part)

/-- So many parts, one after the other. -/
def copies (part : Build Ending) : Nat → Build Ending
  | 0 => do
    addStates 1
    return .plain
  | n + 1 => do moreCopies part n (← part)

/-- So many parts more, each of which may be the last. -/
def optionalCopies (part : Build Ending) : Nat → Ending → Build Unit
  | 0, ending => link ending
  | n + 1, ending => do
    addStates 1
    addTargets 2
    link ending
    optionalCopies part n (← part)

/-- A part so many times; it may match the empty text or not. -/
def manyTimes (part : Build Ending) (skippable : Bool) (times : Times) : Build Ending := do
  match times.least, times.most with
  | 0, some 1 =>
    addStates 1
    link (← part)
    addStates 1
    addTargets 2
    return .plain
  | 0, none =>
    if skippable then
      link (← part)
      addStates 3
      addTargets 4
      return .plain
    else
      addStates 1
      link (← part)
      addTargets 1
      return .branch
  | least, none =>
    link (← copies part least)
    addStates 1
    addTargets 1
    return .branch
  | least, some most =>
    let ending ← copies part least
    if least = most then return ending
    else
      addStates 1
      optionalCopies part (most - least) ending
      return .plain

/-! ## Expressions -/

/-- One of some parts. -/
def oneOf : List (Build Ending) → Build Ending
  | [] => bytesOf 0
  | [part] => part
  | first :: second :: others => do
    link (← first)
    link (← second)
    addStates 2
    addTargets 2
    others.forM fun part => do
      link (← part)
      addTargets 1
    return .plain

end Build

/-- The bytes of a text that is written out. -/
def wordOf? (r : Regex Atom) : Option (List Nat) :=
  if r.parts.isEmpty then none
  else
    let bytes (part : Regex Atom) : Option (List Nat) := do
      if part.isCharacter then return (← (Utf8.sequences (← part.asClass?)).head?).map (·.1)
      else none
    (r.parts.mapM bytes).map List.flatten

/-- The words that an expression is one of, if it is. -/
def wordsOf? (r : Regex Atom) : Option (List (List Nat)) :=
  match r.alternatives with
  | [_] => none
  | rs => rs.mapM wordOf?

/-- What an expression is built from, given what each of its alternatives is built from. -/
def buildOf (backward : Bool) (r : Regex Atom) (alternatives : List (Build Build.Ending)) :
    Build Build.Ending :=
  match r.wordsOf? with
  | some words => Build.wordOf backward words
  | none => Build.oneOf alternatives

/-- What each alternative of an expression is built from. -/
def builds (backward : Bool) : Regex Atom → List (Build Build.Ending)
  | empty => [do Build.addStates 1; return .plain]
  | atom (.one set) => [Build.characterOf backward set]
  | atom (.place _) => [do Build.addStates 1; return .plain]
  | alt left right => builds backward left ++ builds backward right
  | seq first second =>
    let first := buildOf backward first (builds backward first)
    let second := buildOf backward second (builds backward second)
    [do
      if backward then
        Build.link (← second)
        first
      else
        Build.link (← first)
        second]
  | repeated body times =>
    let part := buildOf backward body (builds backward body)
    [Build.manyTimes part (!body.shortest.any (0 < ·)) times]
  | group body =>
    let part := buildOf backward body (builds backward body)
    if backward then [part]
    else
      [do
        Build.addStates 1
        Build.link (← part)
        Build.addStates 1
        return .plain]

/-- Whether an expression matches at the start of a text only. -/
def isAtStart : Regex Atom → Bool
  | atom (.place .textStart) => true
  | seq first second => first.isAtStart || (first.isEmpty && second.isAtStart)
  | alt left right => left.isAtStart && right.isAtStart
  | repeated body times => times.least != 0 && body.isAtStart
  | group body => body.isAtStart
  | _ => false

/-- Whether an expression matches at the end of a text only. -/
def isAtEnd : Regex Atom → Bool
  | atom (.place .textEnd) => true
  | seq first second => second.isAtEnd || (second.isEmpty && first.isAtEnd)
  | alt left right => left.isAtEnd && right.isAtEnd
  | repeated body times => times.least != 0 && body.isAtEnd
  | group body => body.isAtEnd
  | _ => false

/-- The automaton of an expression.  In front of it any bytes are skipped, unless it only matches
where the text begins. -/
def automaton (backward : Bool) (r : Regex Atom) : Build Unit := do
  let body := buildOf backward r (r.builds backward)
  if if backward then r.isAtEnd else r.isAtStart then Build.addStates 1
  else
    Build.addStates 1
    let _ ← Build.bytesOf 1
    Build.addTargets 2
  if backward then Build.link (← body)
  else
    Build.addStates 1
    Build.link (← body)
    Build.addStates 1
  Build.addStates 1

/-- Whether the automata of an expression are small enough. -/
def isLight (r : Regex Atom) : Bool :=
  ((automaton false r).run {}).isSome && ((automaton true r).run {}).isSome

end Regex

end CallGraphs
