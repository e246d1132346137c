import CallGraphs.Analysis.Scope
import CallGraphs.Facts.TranslationUnit

/-!
# Functions and direct calls

The first pass over the facts of a unit: a node for every function it
declares, the override links that the declarations give, and a definite edge
for every call of a known function.
-/

namespace CallGraphs

/-- Counts of the first pass. -/
structure BuildStats where
  functions : Nat := 0
  defined : Nat := 0
  directEdges : Nat := 0
  stubs : Nat := 0
deriving DecidableEq, Inhabited, Repr

namespace BuildStats

/-- The counts in words. -/
def text (s : BuildStats) : String :=
  s!"{s.functions} functions ({s.defined} defined), {s.directEdges} direct edges, " ++
    s!"{s.stubs} stubs"

end BuildStats

namespace DirectCalls

/-- The function that a record declares, marked with its unit. -/
def functionOf (s : Scope) (r : FunctionRecord) : Function where
  key := r.key
  displayName := r.name
  hasBody := r.defined
  isVirtual := r.isVirtual
  isLambda := r.isLambda
  signature := r.signature
  origin := some s.unit

/-- The numbers of parameters that functions were first declared with. -/
abbrev Arities := List (FunctionKey × Nat)

/-- Reports a record with another number of parameters than an earlier one of its function. -/
def checkArity (s : Scope) (g : Graph) (arities : Arities) (r : FunctionRecord) :
    Graph × Arities :=
  if r.signature.isEmpty then (g, arities)
  else
    match arities.lookup r.key with
    | none => (g, arities ++ [(r.key, r.signature.arity)])
    | some first =>
      if first = r.signature.arity then (g, arities)
      else
        (s.malformed g (s!"{r.key} redeclared with {r.signature.arity} parameters " ++
          s!"(first declared with {first})"), arities)

/-- Adds the function of a record. -/
def declare (s : Scope) (state : Graph × Arities) (r : FunctionRecord) : Graph × Arities :=
  let (g, arities) := checkArity s state.1 state.2 r
  ((g.addFunction (functionOf s r)).1, arities)

/-- Links a function to one that it is declared to override. -/
def linkDeclared (s : Scope) (key : FunctionKey) (g : Graph) (base : FunctionKey) : Graph :=
  (s.reference g base ("override of " ++ key)).1.linkOverride key base

/-- Adds the edge of a call site that calls a known function. -/
def addSite (s : Scope) (state : Graph × Nat) (site : CallSite) : Graph × Nat :=
  match site.target with
  | .direct callee =>
    let (g, count) := s.callAll state.1 site.caller [callee] .direct .definite
    (g, state.2 + count)
  | _ => state

/-- The first pass over the facts of a unit. -/
def run (s : Scope) (u : TranslationUnit) (g : Graph) : Graph × BuildStats :=
  let g := (u.functions.foldl (declare s) (g, [])).1
  let g := u.functions.foldl (fun g r => r.overrides.foldl (linkDeclared s r.key) g) g
  let (g, directEdges) := u.callSites.foldl (addSite s) (g, 0)
  (g, {
    functions := g.size
    defined := g.nodes.countP (·.hasBody)
    directEdges
    stubs := g.nodes.countP (·.stub) })

end DirectCalls

end CallGraphs
