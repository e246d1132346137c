import CallGraphs.Graph.Basic

/-!
# Statistics of a call graph
-/

namespace CallGraphs

/-- Counts over a call graph. -/
structure GraphStats where
  functions : Nat
  defined : Nat
  stubs : Nat
  virtualFunctions : Nat
  totalEdges : Nat
  definiteEdges : Nat
  mayEdges : Nat
  /-- The kinds that occur, in their order, with the number of edges of each. -/
  edgesByKind : List (EdgeKind × Nat)
  diagnostics : Nat
  unresolvedCalls : Nat
deriving DecidableEq, Inhabited, Repr

namespace Graph

/-- The number of edges of each kind that occurs. -/
def edgesByKind (g : Graph) : List (EdgeKind × Nat) :=
  (EdgeKind.all.map fun kind => (kind, g.edges.countP (·.edge.kind = kind))).filter (·.2 != 0)

/-- The counts over a graph. -/
def stats (g : Graph) : GraphStats where
  functions := g.size
  defined := g.nodes.countP (·.hasBody)
  stubs := g.nodes.countP (·.stub)
  virtualFunctions := g.nodes.countP (·.isVirtual)
  totalEdges := g.edges.length
  definiteEdges := g.edges.countP (·.edge.isDefinite)
  mayEdges := g.edges.countP (!·.edge.isDefinite)
  edgesByKind := g.edgesByKind
  diagnostics := g.diagnostics.length
  unresolvedCalls := g.unresolvedCalls.length

end Graph

namespace GraphStats

/-- The counts as a text of several lines. -/
def text (s : GraphStats) : String :=
  let kinds := s.edgesByKind.map fun (kind, count) => s!"    {kind.name}: {count}\n"
  "Call Graph Statistics:\n" ++
  s!"  Functions: {s.functions} (defined: {s.defined}, stubs: {s.stubs}, " ++
  s!"virtual: {s.virtualFunctions})\n" ++
  s!"  Edges: {s.totalEdges} (definite: {s.definiteEdges}, may: {s.mayEdges})\n" ++
  String.join kinds ++
  s!"  Diagnostics: {s.diagnostics} (unresolved indirect calls: {s.unresolvedCalls})\n"

end GraphStats

end CallGraphs
