import CallGraphs.Graph.Basic

/-!
# Scopes

What facts are being analysed: those of one unit, or those of the whole
program over the graph of all units.  The scope decides how functions that no
declaration mentions come into the graph.  In a unit they are reported, and
they and every edge are marked with the unit; over the whole program they have
been reported already, and nothing is marked.
-/

namespace CallGraphs

/-- What facts are being analysed. -/
structure Scope where
  /-- The name of the unit. -/
  unit : String
  /-- The facts are those of the whole program. -/
  isGlobal : Bool := false
deriving DecidableEq, Inhabited, Repr

namespace Scope

/-- The name under which the facts of the whole program go. -/
def wholeProgram : String := "<whole-program>"

/-- The mark of whatever is added in this scope. -/
def origin (s : Scope) : Option String := if s.isGlobal then none else some s.unit

/-- Reports a fact that does not make sense. -/
def malformed (s : Scope) (g : Graph) (detail : String) : Graph :=
  if s.isGlobal then g
  else g.addDiagnostic { finding := .malformedFact detail, unit := some s.unit }

/-- The node of a function that a fact refers to; an unknown function becomes a stub. -/
def reference (s : Scope) (g : Graph) (key : FunctionKey) (what : String) : Graph × NodeId :=
  match g.ensureStub key with
  | (g, id, false) => (g, id)
  | (g, id, true) =>
    let g := s.malformed g (what ++ " references unknown symbol " ++ key)
    (if s.isGlobal then g else g.modifyNode id fun f => { f with origin := some s.unit }, id)

/-- Adds an edge between two functions, and tells whether it is new. -/
def call (s : Scope) (g : Graph) (caller callee : FunctionKey) (kind : EdgeKind)
    (confidence : Confidence) : Graph × Bool :=
  let (g, source) := s.reference g caller "call site caller"
  let (g, target) := s.reference g callee ("call from " ++ caller)
  g.insertEdge ⟨source, target, kind, confidence⟩ s.origin

/-- Adds edges from one function to several, and counts the new ones. -/
def callAll (s : Scope) (g : Graph) (caller : FunctionKey) (callees : List FunctionKey)
    (kind : EdgeKind) (confidence : Confidence) : Graph × Nat :=
  callees.foldl (fun (g, count) callee =>
    match s.call g caller callee kind confidence with
    | (g, true) => (g, count + 1)
    | (g, false) => (g, count)) (g, 0)

end Scope

end CallGraphs
