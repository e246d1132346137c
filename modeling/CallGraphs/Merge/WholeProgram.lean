import CallGraphs.Merge.Arbitration

/-!
# Merging units

The graph of a whole program out of the graphs of its units.  Functions are
joined by key, so that they get other nodes than in their unit, and a table
keeps account of them.  Edges are taken over, except for those of excluded
definitions and for definite virtual edges, which may turn out to be one of
several; then the passes for virtual calls, pointers and lifetimes run again
over the facts of all units together.
-/

namespace CallGraphs

/-- Counts of a merge. -/
structure MergeStats where
  units : Nat := 0
  functions : Nat := 0
  edges : Nat := 0
  /-- The definitions that are the same as an earlier one. -/
  duplicates : Nat := 0
  odrConflicts : Nat := 0
  flow : FlowReport := {}
deriving DecidableEq, Inhabited, Repr

namespace MergeStats

/-- The counts as a text of several lines. -/
def text (s : MergeStats) : String :=
  "Merge Stats:\n" ++
  s!"  Translation units: {s.units}\n" ++
  s!"  Functions: {s.functions}\n" ++
  s!"  Edges: {s.edges}\n" ++
  s!"  Duplicate definitions: {s.duplicates}\n" ++
  s!"  ODR conflicts: {s.odrConflicts}\n" ++
  s!"  Global pointer flow: {s.flow.text}\n"

end MergeStats

namespace Merge

/-- A function of a unit as it is taken over; an excluded definition counts as a declaration. -/
def keptFunction (a : Arbitration) (index : Nat) (f : Function) : Function :=
  if a.excludes index f.key then { f with hasBody := false } else f

/-- Adds a function of a unit, and notes the node that it has now. -/
def takeFunction (a : Arbitration) (index : Nat) :
    Graph × List NodeId → Function → Graph × List NodeId
  | (g, table), f =>
    let (g, id) := g.addFunction (keptFunction a index f)
    (g, table ++ [id])

/-- Whether an edge of a unit is taken over. -/
def keepsCall (a : Arbitration) (index : Nat) (c : Call) : Bool :=
  !(c.kind = .virtual && c.confidence = .definite) && !a.excludes index c.caller

/-- Adds an edge of a unit, between the nodes that its ends have now. -/
def takeEdge (a : Arbitration) (p : UnitGraph) (table : List NodeId) (g : Graph)
    (e : SourcedEdge) : Graph :=
  if keepsCall a p.index (p.graph.callOf e) then
    match e.edge.remapped? table with
    | some edge => (g.insertEdge edge e.origin).1
    | none => g
  else g

/-- Adds a diagnostic of a unit; unresolved calls are left to the passes over all units. -/
def takeDiagnostic (g : Graph) (d : Diagnostic) : Graph :=
  if d.isUnresolvedCall then g else g.addDiagnostic d

/-- Joins the graph of a unit to a graph. -/
def absorb (a : Arbitration) (g : Graph) (p : UnitGraph) : Graph :=
  let (g, table) := p.graph.nodes.foldl (takeFunction a p.index) (g, [])
  let g := p.graph.edges.foldl (takeEdge a p table) g
  p.graph.diagnostics.foldl takeDiagnostic g

/-- The union of the graphs of all units, with the conflicts between them. -/
def unionGraph (a : Arbitration) (units : List UnitGraph) : Graph :=
  a.conflicts.foldl Graph.addDiagnostic (units.foldl (absorb a) .empty)

/-- The facts of a unit without those of excluded definitions. -/
def keptFacts (a : Arbitration) (p : UnitGraph) : TranslationUnit :=
  let lost := a.excludes p.index
  let u := p.unit
  { name := u.name
    functions := u.functions.filter fun f => !(f.defined && lost f.key)
    classes := u.classes
    callSites := u.callSites.filter fun s => !lost s.caller
    assignments := u.assignments.filter fun x => !x.context.any lost
    lifetimeEvents := u.lifetimeEvents.filter fun e => !lost e.caller }

/-- The facts of several units together. -/
def joinFacts (units : List TranslationUnit) : TranslationUnit where
  name := Scope.wholeProgram
  functions := units.flatMap (·.functions)
  classes := units.flatMap (·.classes)
  callSites := units.flatMap (·.callSites)
  assignments := units.flatMap (·.assignments)
  lifetimeEvents := units.flatMap (·.lifetimeEvents)

/-- The facts of all units without those of excluded definitions. -/
def facts (a : Arbitration) (units : List UnitGraph) : TranslationUnit :=
  joinFacts (units.map (keptFacts a))

/-- The passes over the facts of all units together. -/
def resolve (options : Options) (u : TranslationUnit) (g : Graph) :
    Except Failure (Graph × FlowReport) :=
  let s : Scope := { unit := u.name, isGlobal := true }
  match VirtualCalls.run s u g with
  | .error failure => .error failure
  | .ok (g, h, _) =>
    match PointerCalls.run s options false h u g with
    | (_, .error failure) => .error failure
    | (g, .ok flow) => .ok ((LifetimeCalls.run s options h u g).1, flow)

/-- What is said while the graphs of the units are joined. -/
def joining (units : List UnitGraph) : List Progress :=
  .started .merging units.length ::
    units.zipIdx.map (fun (p, i) => .advanced .merging (i + 1) p.unit.name) ++
    [.finished .merging]

/-- The graph of a whole program, from the graphs of its units in the order of their indices. -/
def run (digest : String → String) (options : Options) (cancelled : Bool)
    (units : List UnitGraph) : List Progress × Except Failure (Graph × MergeStats) :=
  if cancelled then ([], .error .cancelled)
  else
    let units := units.mergeSort fun p q => p.index ≤ q.index
    let a := Arbitration.ofUnits digest units
    let log := joining units ++ [.started .resolving 3]
    match resolve options (facts a units) (unionGraph a units) with
    | .error failure => (log, .error failure)
    | .ok (g, flow) =>
      (log ++ [.finished .resolving], .ok (g, {
        units := units.length
        functions := g.size
        edges := g.edges.length
        duplicates := a.duplicates
        odrConflicts := a.excluded.length
        flow }))

end Merge

end CallGraphs
