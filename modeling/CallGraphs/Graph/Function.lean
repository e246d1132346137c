import CallGraphs.Data.SortedSet

/-!
# Functions

The nodes of a call graph.  A function is known by its canonical key, usually
the mangled name: two declarations with the same key, in one translation unit
or in many, are the same function, and `Function.absorb` folds what one of
them says into what is known already.
-/

namespace CallGraphs

/-- The canonical symbol key of a function. -/
abbrev FunctionKey := String

/-- The parameter and return types of a function, as the front end spells them. -/
structure Signature where
  params : List String := []
  ret : String := ""
deriving DecidableEq, Inhabited, Repr

namespace Signature

/-- The number of parameters. -/
def arity (s : Signature) : Nat := s.params.length

/-- Nothing is known of the parameters nor of the result. -/
def isEmpty (s : Signature) : Bool := s.params.isEmpty && s.ret.isEmpty

/-- The signature as one line: the result, then the parameters in brackets. -/
def text (s : Signature) : String := s.ret ++ "(" ++ String.intercalate ", " s.params ++ ")"

end Signature

/-- A function of a call graph. -/
structure Function where
  key : FunctionKey
  /-- The readable name, if the front end gave one. -/
  displayName : Option String := none
  /-- A body was seen. -/
  hasBody : Bool := false
  /-- Declared virtual, or found to be. -/
  isVirtual : Bool := false
  /-- The body of a lambda expression. -/
  isLambda : Bool := false
  /-- Known only because something referred to it. -/
  stub : Bool := false
  signature : Signature := {}
  /-- The functions this one overrides. -/
  overrides : SortedSet FunctionKey := ∅
  /-- The functions that override this one. -/
  overriddenBy : SortedSet FunctionKey := ∅
  /-- The unit it was first seen in, or the one that defines it. -/
  origin : Option String := none
deriving DecidableEq, Inhabited

namespace Function

/-- A function that was declared and nothing more. -/
def declared (key : FunctionKey) : Function := { key }

/-- A function that no declaration mentions. -/
def stubOf (key : FunctionKey) : Function := { key, stub := true }

/-- No unit seen so far gives it a body. -/
def isExternal (f : Function) : Bool := !f.hasBody

/-- It overrides some function. -/
def doesOverride (f : Function) : Bool := !f.overrides.isEmpty

/-- The name to show: the readable one if there is one, else the key. -/
def name (f : Function) : String := f.displayName.getD f.key

/--
What is known of a function after another declaration of its key.  Flags only
turn on, a stub stays one only while every mention is one, the first readable
name and the first signature with any content stay, and the override sets
grow.  The origin changes only when the first body arrives, and then to the
unit of that body if it is known.
-/
def absorb (f other : Function) : Function :=
  { f with
    origin := if other.hasBody && !f.hasBody then other.origin <|> f.origin else f.origin
    hasBody := f.hasBody || other.hasBody
    isVirtual := f.isVirtual || other.isVirtual
    isLambda := f.isLambda || other.isLambda
    stub := f.stub && other.stub
    displayName := f.displayName <|> other.displayName
    signature := if f.signature.isEmpty then other.signature else f.signature
    overrides := f.overrides.union other.overrides
    overriddenBy := f.overriddenBy.union other.overriddenBy }

@[simp]
theorem key_absorb (f other : Function) : (f.absorb other).key = f.key := rfl

end Function

end CallGraphs
