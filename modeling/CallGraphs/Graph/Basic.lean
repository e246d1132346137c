import CallGraphs.Graph.Edge
import CallGraphs.Graph.Diagnostic

/-!
# Call graphs

A table of functions, the edges between them and the diagnostics raised on the
way.  A graph only grows: a function keeps its place in the table, one key has
one place, and edges and diagnostics stay in the order in which they were
first recorded.
-/

namespace CallGraphs

/-- An edge of a graph and the unit it comes from. -/
structure SourcedEdge where
  edge : Edge
  origin : Option String
deriving DecidableEq, Inhabited, Repr

/-- A call graph. -/
structure Graph where
  /-- The functions; the place of a function is its node number. -/
  nodes : List Function := []
  /-- The edges, in the order in which they were added. -/
  edges : List SourcedEdge := []
  /-- The diagnostics, in the order in which they were raised. -/
  diagnostics : List Diagnostic := []
deriving DecidableEq, Inhabited

namespace Graph

/-! ## Nodes -/

/-- The graph without functions. -/
def empty : Graph := {}

/-- The number of functions. -/
def size (g : Graph) : Nat := g.nodes.length

/-- The node of a key. -/
def nodeId? (g : Graph) (key : FunctionKey) : Option NodeId :=
  g.nodes.findIdx? (·.key == key)

/-- The function at a node. -/
def node? (g : Graph) (id : NodeId) : Option Function := g.nodes[id]?

/-- The function of a key. -/
def find? (g : Graph) (key : FunctionKey) : Option Function :=
  g.nodes.find? (·.key == key)

/-- Whether some node has this key. -/
def contains (g : Graph) (key : FunctionKey) : Bool := (g.nodeId? key).isSome

/-- The key at a node; the empty key where there is no node. -/
def keyOf (g : Graph) (id : NodeId) : FunctionKey := ((g.node? id).map (·.key)).getD ""

/-- The graph with the function at one node changed. -/
def modifyNode (g : Graph) (id : NodeId) (change : Function → Function) : Graph :=
  { g with nodes := g.nodes.modify id change }

/-- Adds a function; a function of the same key absorbs it. -/
def addFunction (g : Graph) (f : Function) : Graph × NodeId :=
  match g.nodeId? f.key with
  | some id => (g.modifyNode id (·.absorb f), id)
  | none => ({ g with nodes := g.nodes ++ [f] }, g.size)

/-- The node of a key, which is declared if it is new. -/
def ensureNode (g : Graph) (key : FunctionKey) : Graph × NodeId :=
  match g.nodeId? key with
  | some id => (g, id)
  | none => g.addFunction (.declared key)

/-- The node of a key, and whether a stub had to be made for it. -/
def ensureStub (g : Graph) (key : FunctionKey) : Graph × NodeId × Bool :=
  match g.nodeId? key with
  | some id => (g, id, false)
  | none =>
    let (g, id) := g.addFunction (.stubOf key)
    (g, id, true)

/-- Records that one function overrides another.  A function never overrides itself. -/
def linkOverride (g : Graph) (overrider base : FunctionKey) : Graph :=
  let (g, above) := g.ensureNode overrider
  let (g, below) := g.ensureNode base
  if above = below then g
  else
    (g.modifyNode above fun f => { f with overrides := f.overrides.insert base }).modifyNode below
      fun f => { f with overriddenBy := f.overriddenBy.insert overrider }

/-- The functions sorted by key. -/
def sortedFunctions (g : Graph) : List Function :=
  g.nodes.mergeSort fun a b => (compare a.key b.key).isLE

/-! ## Edges -/

/-- Both ends of the edge are nodes of the graph. -/
def admits (g : Graph) (e : Edge) : Bool := e.caller < g.size && e.callee < g.size

/-- Whether the graph has this edge. -/
def containsEdge (g : Graph) (e : Edge) : Bool := g.edges.any (·.edge = e)

/--
Records an edge between two nodes, and tells whether it is new.  An edge that
is there already keeps its place and its origin; an edge with an end outside
the graph is not recorded.
-/
def insertEdge (g : Graph) (e : Edge) (origin : Option String) : Graph × Bool :=
  if g.admits e && !g.containsEdge e then
    ({ g with edges := g.edges ++ [⟨e, origin⟩] }, true)
  else (g, false)

/-- `insertEdge` for ends that may be outside the graph: then there is no answer. -/
def addEdge? (g : Graph) (e : Edge) (origin : Option String) : Option (Graph × Bool) :=
  if g.admits e then some (g.insertEdge e origin) else none

/-- The edges that leave a node, in the order in which they were added. -/
def edgesFrom (g : Graph) (id : NodeId) : List Edge :=
  (g.edges.map (·.edge)).filter (·.caller = id)

/-- The edges that reach a node, in the order in which they were added. -/
def edgesTo (g : Graph) (id : NodeId) : List Edge :=
  (g.edges.map (·.edge)).filter (·.callee = id)

/-- The edges from one function to another. -/
def edgesBetween (g : Graph) (caller callee : FunctionKey) : List Edge :=
  match g.nodeId? caller, g.nodeId? callee with
  | some source, some target => (g.edgesFrom source).filter (·.callee = target)
  | _, _ => []

/-- Whether some edge leads from one function to another. -/
def hasCall (g : Graph) (caller callee : FunctionKey) : Bool :=
  !(g.edgesBetween caller callee).isEmpty

/-- An edge with its ends given by key. -/
def callOf (g : Graph) (e : SourcedEdge) : Call where
  caller := g.keyOf e.edge.caller
  callee := g.keyOf e.edge.callee
  kind := e.edge.kind
  confidence := e.edge.confidence
  origin := e.origin

/-- The edges by key, in the order in which they were added. -/
def calls (g : Graph) : List Call := g.edges.map g.callOf

/-- The edges by key, sorted; their origins are left out. -/
def sortedCalls (g : Graph) : List Call :=
  (g.calls.map fun c => { c with origin := none }).mergeSort fun a b => (compare a b).isLE

/-- The functions that one function calls. -/
def callees (g : Graph) (key : FunctionKey) : SortedSet FunctionKey :=
  match g.nodeId? key with
  | some id => .ofList ((g.edgesFrom id).map fun e => g.keyOf e.callee)
  | none => .empty

/-- The functions that call one function. -/
def callers (g : Graph) (key : FunctionKey) : SortedSet FunctionKey :=
  match g.nodeId? key with
  | some id => .ofList ((g.edgesTo id).map fun e => g.keyOf e.caller)
  | none => .empty

/-- Every edge has both its ends in the graph. -/
def isClosed (g : Graph) : Bool := g.edges.all fun e => g.admits e.edge

/-- Adds a call by key.  Ends that are new are declared. -/
def addCall (g : Graph) (c : Call) : Graph :=
  let (g, caller) := g.ensureNode c.caller
  let (g, callee) := g.ensureNode c.callee
  (g.insertEdge ⟨caller, callee, c.kind, c.confidence⟩ c.origin).1

/-! ## Diagnostics -/

/-- Records a diagnostic, once. -/
def addDiagnostic (g : Graph) (d : Diagnostic) : Graph :=
  if d ∈ g.diagnostics then g else { g with diagnostics := g.diagnostics ++ [d] }

/-- The diagnostics about indirect calls that are not resolved. -/
def unresolvedCalls (g : Graph) : List Diagnostic := g.diagnostics.filter (·.isUnresolvedCall)

/-- The graph of a list of functions, calls and diagnostics, added in this order. -/
def build (functions : List Function) (calls : List Call) (diagnostics : List Diagnostic) :
    Graph :=
  let g := functions.foldl (fun g f => (g.addFunction f).1) empty
  let g := calls.foldl addCall g
  diagnostics.foldl addDiagnostic g

end Graph

end CallGraphs
