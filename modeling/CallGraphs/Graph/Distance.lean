import CallGraphs.Data.Counting
import CallGraphs.Data.SortedMap
import CallGraphs.Data.Word
import CallGraphs.Graph.Basic

/-!
# Distances in a call graph

Which functions a function reaches, and which reach it, within a number of
calls.  A traversal takes nodes from a queue and puts the neighbours behind that
were not visited before, so every function is found at its shortest distance.  The
start counts as visited from the beginning and is not left again; it is found
when a call leads back to it, and then keeps the distance at which it was found
first.
-/

namespace CallGraphs

/-- Where a traversal stands. -/
structure Traversal where
  /-- The functions found so far, each with its distance. -/
  found : SortedMap FunctionKey Nat := .empty
  visited : List NodeId
  /-- The nodes to go on from, each with its distance. -/
  queue : List (NodeId × Nat)

namespace Traversal

/-- Nothing is found yet, and the start is to be left. -/
def start (node : NodeId) : Traversal := { visited := [node], queue := [(node, 0)] }

/-- Looks at a neighbour of a node at some distance. -/
def look (keyOf : NodeId → FunctionKey) (start : NodeId) (distance : Nat) (t : Traversal)
    (node : NodeId) : Traversal :=
  let found :=
    if node = start then t.found.insertNew (keyOf node) (distance + 1) else t.found
  if node ∈ t.visited then { t with found }
  else {
    found := found.insert (keyOf node) (distance + 1)
    visited := node :: t.visited
    queue := t.queue ++ [(node, distance + 1)] }

section
variable {keyOf : NodeId → FunctionKey} {start : NodeId} {distance : Nat} {all : List NodeId}

/-- What a traversal may still do: nodes to visit and nodes to go on from. -/
def work (all : List NodeId) (t : Traversal) : Nat := unseen all t.visited + t.queue.length

theorem work_look_le {node : NodeId} (hnode : node ∈ all) (t : Traversal) :
    (t.look keyOf start distance node).work all ≤ t.work all := by
  rw [look]
  split
  · exact Nat.le_refl _
  · next hnew =>
    have := unseen_cons_lt hnode hnew
    simp only [work, List.length_append, List.length_singleton]
    omega

theorem work_foldl_look_le {nodes : List NodeId} (hnodes : nodes ⊆ all) (t : Traversal) :
    (nodes.foldl (look keyOf start distance) t).work all ≤ t.work all := by
  induction nodes generalizing t with
  | nil => exact Nat.le_refl _
  | cons node rest ih =>
    obtain ⟨hnode, hrest⟩ := List.cons_subset.1 hnodes
    exact Nat.le_trans (ih hrest _) (work_look_le hnode t)

end

/-- Goes on while there are nodes in the queue; nodes as far away as `depth` are not left. -/
def run (keyOf : NodeId → FunctionKey) (neighbours : NodeId → List NodeId) (start : NodeId)
    (depth : Nat) (all : List NodeId) (hall : ∀ node, neighbours node ⊆ all) :
    Traversal → SortedMap FunctionKey Nat
  | { found, visited := _, queue := [] } => found
  | { found, visited, queue := (node, distance) :: rest } =>
    if depth ≤ distance then
      run keyOf neighbours start depth all hall { found, visited, queue := rest }
    else
      run keyOf neighbours start depth all hall
        ((neighbours node).foldl (look keyOf start distance) { found, visited, queue := rest })
termination_by t => t.work all
decreasing_by
  · simp [work]
  · refine Nat.lt_of_le_of_lt (work_foldl_look_le (hall node) _) ?_
    simp [work]

end Traversal

namespace Graph

/-- The nodes that a node calls. -/
def successors (g : Graph) (id : NodeId) : List NodeId := (g.edgesFrom id).map (·.callee)

/-- The nodes that call a node. -/
def predecessors (g : Graph) (id : NodeId) : List NodeId := (g.edgesTo id).map (·.caller)

/-- The nodes next to a node, along the calls or against them. -/
def neighbours (g : Graph) (forward : Bool) (id : NodeId) : List NodeId :=
  if forward then g.successors id else g.predecessors id

/-- The nodes at the ends of edges. -/
def ends (g : Graph) : List NodeId := g.edges.flatMap fun e => [e.edge.caller, e.edge.callee]

theorem neighbours_subset_ends (g : Graph) (forward : Bool) (id : NodeId) :
    g.neighbours forward id ⊆ g.ends := by
  intro node hnode
  rw [neighbours] at hnode
  split at hnode
  · obtain ⟨e, he, rfl⟩ := List.mem_map.1 hnode
    obtain ⟨s, hs, rfl⟩ := List.mem_map.1 (List.mem_filter.1 he).1
    exact List.mem_flatMap.2 ⟨s, hs, by simp⟩
  · obtain ⟨e, he, rfl⟩ := List.mem_map.1 hnode
    obtain ⟨s, hs, rfl⟩ := List.mem_map.1 (List.mem_filter.1 he).1
    exact List.mem_flatMap.2 ⟨s, hs, by simp⟩

/-- The functions within `depth` steps of a function, each with its distance. -/
def bfs (g : Graph) (key : FunctionKey) (depth : Nat) (forward : Bool) :
    SortedMap FunctionKey Nat :=
  match g.nodeId? key with
  | none => .empty
  | some start =>
    Traversal.run g.keyOf (g.neighbours forward) start depth g.ends
      (g.neighbours_subset_ends forward) (.start start)

/-- The functions reached from a function by at most `depth` calls, by key. -/
def calleesWithin (g : Graph) (key : FunctionKey) (depth : Nat) : List (FunctionKey × Nat) :=
  (g.bfs key depth true).entries

/-- The functions that reach a function by at most `depth` calls, by key. -/
def callersWithin (g : Graph) (key : FunctionKey) (depth : Nat) : List (FunctionKey × Nat) :=
  (g.bfs key depth false).entries

/-- The functions reached from a function, by as many calls as can be counted. -/
def reachableFrom (g : Graph) (entry : FunctionKey) : List FunctionKey :=
  (g.bfs entry (wordLimit - 1) true).keys

end Graph

end CallGraphs
