import CallGraphs.Graph.Function

/-!
# Edges

A call edge says that one function calls another, by which mechanism, and
whether the call certainly or only possibly goes there.  Inside a graph the
ends are node numbers (`Edge`); wherever an edge leaves the graph its ends are
keys (`Call`).
-/

namespace CallGraphs

/-- The position of a function in the node table of a graph. -/
abbrev NodeId := Nat

/-- The mechanism of a call. -/
inductive EdgeKind where
  /-- Bound statically. -/
  | direct
  /-- Dispatched through a class hierarchy. -/
  | virtual
  /-- Through a function pointer. -/
  | pointer
  /-- Through a pointer to a member function. -/
  | memberPointer
  /-- A constructor or destructor call that the compiler inserts. -/
  | implicit
deriving DecidableEq, Ord, Inhabited, Repr

namespace EdgeKind

/-- All kinds, in their order. -/
def all : List EdgeKind := [direct, virtual, pointer, memberPointer, implicit]

/-- The name of a kind in every text. -/
def name : EdgeKind → String
  | direct => "direct"
  | virtual => "virtual"
  | pointer => "pointer"
  | memberPointer => "member_pointer"
  | implicit => "implicit"

/-- The targets of such a call are known only after alias analysis. -/
def isIndirect : EdgeKind → Bool
  | pointer | memberPointer => true
  | _ => false

/--
The kind that a word stands for.  Letter case is ignored, and some kinds have
short names.  Folding ASCII letters is enough: no other character folds to a
letter of these words.
-/
def ofWord? (word : String) : Option EdgeKind :=
  match word.toLower with
  | "direct" | "call" => some direct
  | "virtual" => some virtual
  | "pointer" | "fptr" => some pointer
  | "member_pointer" | "memberpointer" | "mptr" => some memberPointer
  | "implicit" => some implicit
  | _ => none

end EdgeKind

/-- Whether an edge is taken for certain. -/
inductive Confidence where
  /-- Taken whenever the caller reaches the site. -/
  | definite
  /-- Possibly taken. -/
  | may
deriving DecidableEq, Ord, Inhabited, Repr

namespace Confidence

/-- The name of a confidence in every text. -/
def name : Confidence → String
  | definite => "definite"
  | may => "may"

/-- The confidence that a word stands for, letter case ignored. -/
def ofWord? (word : String) : Option Confidence :=
  match word.toLower with
  | "definite" => some definite
  | "may" => some may
  | _ => none

end Confidence

/--
An edge between two nodes of one graph.  A definite and a possible edge
between the same two nodes are different edges.
-/
structure Edge where
  caller : NodeId
  callee : NodeId
  kind : EdgeKind
  confidence : Confidence
deriving DecidableEq, Inhabited, Repr

namespace Edge

/-- Certainly taken. -/
def isDefinite (e : Edge) : Bool := e.confidence = .definite

/-- The same edge between the nodes that a table gives for its ends, if it gives both. -/
def remapped? (e : Edge) (table : List NodeId) : Option Edge := do
  let caller ← table[e.caller]?
  let callee ← table[e.callee]?
  some { e with caller, callee }

end Edge

/-- An edge with its ends given by key, and the unit it comes from. -/
structure Call where
  caller : FunctionKey
  callee : FunctionKey
  kind : EdgeKind
  confidence : Confidence
  origin : Option String := none
deriving DecidableEq, Inhabited, Repr

namespace Call

/-- Calls sort by caller, callee, kind, confidence and last by origin, no origin first. -/
instance : Ord Call where
  compare :=
    compareLex (compareOn Call.caller) <|
    compareLex (compareOn Call.callee) <|
    compareLex (compareOn Call.kind) <|
    compareLex (compareOn Call.confidence) (compareOn Call.origin)

/-- The same call, whatever units the two come from. -/
def sameEdge (a b : Call) : Bool :=
  a.caller = b.caller && a.callee = b.callee && a.kind = b.kind && a.confidence = b.confidence

end Call

end CallGraphs
