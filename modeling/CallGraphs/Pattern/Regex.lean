import CallGraphs.Text.Classes

/-!
# Regular expressions

Regular expressions and what they match.  A match is searched for anywhere in
a text, so all that is asked of an expression is which places of the text a
match can end at, given the places it may start at.  A set of places is a
number, one bit for each place.
-/

namespace CallGraphs

/-! ## Places in a text -/

/-- What a place has to do with a word. -/
inductive WordPlace where
  /-- A word starts or ends here. -/
  | edge
  /-- No word starts or ends here. -/
  | noEdge
  | start
  | finish
  /-- Nothing of a word stands before. -/
  | startHalf
  /-- Nothing of a word stands after. -/
  | finishHalf
deriving DecidableEq, Inhabited, Repr

namespace WordPlace

/-- Whether a place is one, from whether characters of words stand before and after it. -/
def holds : WordPlace → (before after : Bool) → Bool
  | edge, before, after => before != after
  | noEdge, before, after => before == after
  | start, before, after => !before && after
  | finish, before, after => before && !after
  | startHalf, before, _ => !before
  | finishHalf, _, after => !after

end WordPlace

/-- A place that an expression may ask for. -/
inductive Place where
  | textStart
  | textEnd
  /-- The start of a line; lines may also end with a carriage return, or with both characters. -/
  | lineStart (returns : Bool)
  /-- The end of a line. -/
  | lineEnd (returns : Bool)
  /-- A place that has to do with a word; words may be limited to ASCII. -/
  | word (place : WordPlace) (ascii : Bool)
deriving DecidableEq, Inhabited, Repr

namespace Place

/-- Whether a place is one, from the characters before and after it. -/
def holds : Place → (before after : Option Char) → Bool
  | textStart, before, _ => before.isNone
  | textEnd, _, after => after.isNone
  | lineStart returns, before, after =>
    before.all fun c => c = '\n' || (returns && c = '\r' && after != some '\n')
  | lineEnd returns, before, after =>
    after.all fun c => (c = '\n' && !(returns && before == some '\r')) || (returns && c = '\r')
  | word place ascii, before, after =>
    let inWord (c : Char) : Bool := isWordCharacter c && (!ascii || c.toNat < 0x80)
    place.holds (before.any inWord) (after.any inWord)

end Place

/-! ## Expressions -/

/-- How often something may occur. -/
structure Times where
  least : Nat
  /-- The bound, if there is one. -/
  most : Option Nat
  /-- More rounds are preferred to fewer; what matches is the same. -/
  greedy : Bool := true
deriving DecidableEq, Inhabited, Repr

/-- A regular expression over some kind of atoms. -/
inductive Regex (α : Type) where
  /-- The empty text. -/
  | empty
  | atom (a : α)
  /-- One after the other. -/
  | seq (first second : Regex α)
  /-- One or the other. -/
  | alt (left right : Regex α)
  | repeated (body : Regex α) (times : Times)
  /-- A group whose match is kept. -/
  | group (body : Regex α)
deriving DecidableEq, Inhabited, Repr

namespace Regex

variable {α β : Type}

/-- The expression with other atoms. -/
def map (f : α → β) : Regex α → Regex β
  | empty => empty
  | atom a => atom (f a)
  | seq first second => seq (first.map f) (second.map f)
  | alt left right => alt (left.map f) (right.map f)
  | repeated body times => repeated (body.map f) times
  | group body => group (body.map f)

/-- What the atoms of a written expression ask for. -/
inductive Atom where
  /-- One character of a class. -/
  | one (set : CodeRanges)
  | place (place : Place)
deriving DecidableEq, Inhabited, Repr

/-! ## Matching -/

/-- A step from places to places: from those that are allowed, by a character or by none. -/
structure Move where
  allowed : Nat
  length : Nat
deriving DecidableEq, Inhabited, Repr

namespace Move

/-- The places that a step leads to. -/
def apply (move : Move) (places : Nat) : Nat := (places &&& move.allowed) <<< move.length

end Move

/-- The number whose bits are the given flags, the lowest first. -/
def bits (flags : List Bool) : Nat := flags.foldr (fun flag n => 2 * n + flag.toNat) 0

/-- The step that an atom stands for in a text. -/
def Atom.move (text : List Char) : Atom → Move
  | one set => { allowed := bits (text.map set.contains), length := 1 }
  | place p =>
    let before := none :: text.map some
    let after := text.map some ++ [none]
    { allowed := bits (List.zipWith p.holds before after), length := 0 }

/-- A number of rounds, of which those after one that changes nothing are left out. -/
def rounds (step : Nat → Nat) : Nat → Nat → Nat
  | 0, places => places
  | n + 1, places =>
    let next := step places
    if next = places then places else rounds step n next

/--
The places where matches end that start at the given places.  In a text of
less than `size` places, every round of an unbounded repetition that matters
adds one, so `size` rounds are enough.
-/
def reach (size : Nat) : Regex Move → Nat → Nat
  | empty, places => places
  | atom move, places => move.apply places
  | seq first second, places => reach size second (reach size first places)
  | alt left right, places => reach size left places ||| reach size right places
  | repeated body times, places =>
    rounds (fun places => places ||| reach size body places)
      (times.most.elim size (· - times.least)) (rounds (reach size body) times.least places)
  | group body, places => reach size body places

/-- Whether an expression matches somewhere in a text. -/
def isMatch (r : Regex Atom) (text : String) : Bool :=
  let chars := text.toList
  let size := chars.length + 1
  reach size (r.map (Atom.move chars)) (1 <<< size - 1) != 0

/-! ## Rounds -/

theorem repeat_succ (step : Nat → Nat) (n places : Nat) :
    Nat.repeat step (n + 1) places = Nat.repeat step n (step places) := by
  induction n with
  | zero => rfl
  | succ n ih => rw [Nat.repeat, ih, Nat.repeat]

/-- Leaving out the rounds that change nothing changes nothing. -/
theorem rounds_eq_repeat (step : Nat → Nat) (n places : Nat) :
    rounds step n places = Nat.repeat step n places := by
  induction n generalizing places with
  | zero => rfl
  | succ n ih =>
    rw [rounds, repeat_succ]
    split
    next h =>
      rw [h]
      clear ih
      induction n with
      | zero => rfl
      | succ n ih => rw [Nat.repeat, ← ih, h]
    next => exact ih _

end Regex

end CallGraphs
