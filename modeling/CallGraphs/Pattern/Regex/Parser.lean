import CallGraphs.Pattern.Regex.Automaton
import CallGraphs.Pattern.Regex.Bracket
import CallGraphs.Text.Recent

/-!
# Reading regular expressions

An expression is read from left to right with a stack of the groups that are
still open.  Flags hold to the end of their group.  An expression in which
too much is nested, or that is too heavy, is refused.
-/

namespace CallGraphs

namespace Regex

/-- How deep repetitions, groups, classes, sequences and alternatives may be nested. -/
def maxHeight : Nat := 250

/-! ## Open groups -/

/-- A part of an expression. -/
structure Piece where
  regex : Regex Atom
  /-- How deep the parts in it are nested. -/
  height : Nat := 0
  /-- It only switches flags, so it cannot be repeated. -/
  isSwitch : Bool := false
deriving Inhabited

namespace Piece

/-- A class or a place by itself. -/
def atom (a : Atom) : Piece := { regex := .atom a }

/-- The height of several parts side by side: one of them is as high as it is. -/
def heightOf : List Piece → Nat
  | [] => 0
  | [piece] => piece.height
  | pieces => pieces.foldl (fun height piece => max height piece.height) 0 + 1

/-- The parts one after the other, the last one first. -/
def inSequence (pieces : List Piece) : Piece :=
  { regex := joined (pieces.map (·.regex)).reverse, height := heightOf pieces }

/-- One of the parts, of which there is at least one; the last one comes first. -/
def oneOf (last : Piece) (others : List Piece) : Piece :=
  { regex := anyOf ((last :: others).map (·.regex)).reverse
    height := heightOf (last :: others) }

end Piece

/-- A group that is still open. -/
structure Level where
  /-- The flags as they are now. -/
  flags : Flags := {}
  /-- The match of the group is kept. -/
  isKept : Bool := false
  /-- The alternatives before the last bar, latest first. -/
  alternatives : List Piece := []
  /-- The parts after the last bar, latest first. -/
  pieces : List Piece := []
deriving Inhabited

namespace Level

/-- The level with one more part. -/
def push (level : Level) (piece : Piece) : Level := { level with pieces := piece :: level.pieces }

/-- The level with flags switched by a word. -/
def switch (level : Level) (word : List Char) : Level :=
  { level.push { regex := .empty, isSwitch := true } with flags := level.flags.apply word }

/-- The level after a bar. -/
def bar (level : Level) : Level :=
  { level with alternatives := .inSequence level.pieces :: level.alternatives, pieces := [] }

/-- The level with its last part repeated. -/
def repeatLast? (level : Level) (times : Times) : Option Level :=
  match level.pieces with
  | [] => none
  | piece :: pieces =>
    if piece.isSwitch then none
    else
      some { level with
        pieces := { regex := piece.regex.manyTimes times, height := piece.height + 1 } :: pieces }

/-- All that was read of the group. -/
def content (level : Level) : Piece := .oneOf (.inSequence level.pieces) level.alternatives

/-- The group after its closing bracket. -/
def close (level : Level) : Piece :=
  let content := level.content
  { regex := if level.isKept then .group content.regex else content.regex
    height := content.height + 1 }

end Level

/-! ## What opens a group -/

/-- What an opening bracket begins. -/
inductive Opening where
  /-- A group whose match is kept, under a name if it has one. -/
  | kept (name : Option (List Char))
  /-- A group whose match is not kept, with flags of its own. -/
  | plain (word : List Char)
  /-- A change of flags for the rest of the group around it. -/
  | switch (word : List Char)
deriving DecidableEq, Inhabited, Repr

/-- A character that may stand in the name of a group. -/
def isNameChar (first : Bool) (c : Char) : Bool :=
  c = '_' || alphabeticCharacters.contains c || recentLetters.contains c ||
    (!first && (c = '.' || c = '[' || c = ']' || numericCharacters.contains c ||
      recentNumerals.contains c))

/-- The name of a group, up to its closing angle bracket. -/
def groupName : Reader (List Char) := fun cs =>
  let name := cs.takeWhile (· ≠ '>')
  match name, cs.drop name.length with
  | first :: others, '>' :: rest =>
    if isNameChar true first && others.all (isNameChar false) then some (name, rest) else none
  | _, _ => none

/-- What an opening bracket begins, after the bracket.  What looks ahead or back is refused. -/
def opening : Reader Opening
  | '?' :: 'P' :: '<' :: rest => (groupName rest).map fun (name, rest) => (.kept name, rest)
  | '?' :: '<' :: rest => (groupName rest).map fun (name, rest) => (.kept name, rest)
  | '?' :: rest =>
    let word := rest.takeWhile fun c => c ≠ ':' && c ≠ ')'
    if Flags.isWord word then
      match rest.drop word.length with
      | ':' :: rest => some (.plain word, rest)
      | ')' :: rest => if word.isEmpty then none else some (.switch word, rest)
      | _ => none
    else none
  | cs => some (.kept none, cs)

/-! ## Expressions -/

/-- What was read so far. -/
structure State where
  /-- The innermost group. -/
  level : Level := {}
  /-- The groups around it. -/
  outer : List Level := []
  /-- The names of groups. -/
  names : List (List Char) := []
deriving Inhabited

namespace State

/-- The state with one more part. -/
def push (state : State) (piece : Piece) : State := { state with level := state.level.push piece }

/-- The state after an opening bracket. -/
def enter (state : State) (opening : Opening) : Option State :=
  let flags := state.level.flags
  match opening with
  | .kept none =>
    some { state with level := { flags, isKept := true }, outer := state.level :: state.outer }
  | .kept (some name) =>
    if name ∈ state.names then none
    else some {
      level := { flags, isKept := true }
      outer := state.level :: state.outer
      names := name :: state.names }
  | .plain word =>
    some { state with
      level := { flags := flags.apply word }
      outer := state.level :: state.outer }
  | .switch word => some { state with level := state.level.switch word }

/-- The state after a closing bracket. -/
def close (state : State) : Option State :=
  match state.outer with
  | [] => none
  | parent :: outer => some { state with level := parent.push state.level.close, outer }

/-- The state with its last part repeated. -/
def repeatLast? (state : State) (times : Times) : Option State :=
  (state.level.repeatLast? times).map fun level => { state with level }

/-- The state with its last part repeated, and the rest after the mark of preference. -/
def repeatLast (state : State) (times : Times) (rest : List Char) : Option (State × List Char) :=
  let (times, rest) := preferred state.level.flags times rest
  (state.repeatLast? times).map (·, rest)

/-- The state after something that stands by itself. -/
def place (state : State) (primitive : Primitive) : State :=
  match primitive with
  | .char c => state.push (.atom (.one (state.level.flags.literal c)))
  | .set set => state.push (.atom (.one set))
  | .place p => state.push (.atom (.place p))

end State

/-- The state after one more token, and the rest of the text. -/
def token (fuel : Nat) (state : State) : Reader State
  | [] => none
  | c :: rest =>
    let flags := state.level.flags
    match c with
    | '(' => do
      let (opening, rest) ← opening (flags.skip rest)
      (state.enter opening).map (·, rest)
    | ')' => state.close.map (·, rest)
    | '|' => some ({ state with level := state.level.bar }, rest)
    | '[' =>
      (bracket flags fuel rest).map fun (operand, rest) =>
        (state.push { regex := .atom (.one operand.set), height := operand.height }, rest)
    | '?' => state.repeatLast { least := 0, most := some 1 } rest
    | '*' => state.repeatLast { least := 0, most := none } rest
    | '+' => state.repeatLast { least := 1, most := none } rest
    | '\x7b' => do
      let (times, rest) ← bounds flags rest
      (state.repeatLast? times).map (·, rest)
    | '\\' => (escape flags rest).map fun (primitive, rest) => (state.place primitive, rest)
    | '.' => flags.dot?.map fun set => (state.place (.set set), rest)
    | '^' =>
      let start := if flags.lines then .lineStart flags.returns else .textStart
      some (state.place (.place start), rest)
    | '$' =>
      let finish := if flags.lines then .lineEnd flags.returns else .textEnd
      some (state.place (.place finish), rest)
    | c => some (state.place (.char c), rest)

/-- Reads tokens to the end of a text; the length of the text is enough fuel. -/
def tokens : Nat → State → List Char → Option State
  | fuel, state, cs =>
    match state.level.flags.skip cs, fuel with
    | [], _ => some state
    | _ :: _, 0 => none
    | cs, fuel + 1 =>
      match token fuel state cs with
      | some (state, rest) => tokens fuel state rest
      | none => none

/-- Reads a regular expression. -/
def parse? (pattern : String) : Option (Regex Atom) := do
  let cs := pattern.toList
  let state ← tokens cs.length {} cs
  let content := state.level.content
  if state.outer.isEmpty && content.height ≤ maxHeight && content.regex.isLight then
    some content.regex
  else none

end Regex

end CallGraphs
