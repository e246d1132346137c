import CallGraphs.Merge.WholeProgram
import CallGraphs.Proofs.Graph.Features

/-!
# Nodes of a unit in a merged graph

A merge takes the edges of a unit over by a table of the nodes that the functions of
the unit have in the merged graph.  The table is filled while the graph still grows.
But a key keeps its node, so at the end the table gives for each node of the unit what
a search for its key would find (`Numbers`).  Hence a unit is joined as if its functions
and its calls were added by key alone (`absorb_eq_joinUnit`).
-/

namespace CallGraphs

namespace Merge

open CallGraphs.Graph

/-! ## By key alone -/

/-- Adds a function of a unit. -/
def joinFunction (a : Arbitration) (index : Nat) (g : Graph) (f : Function) : Graph :=
  (g.addFunction (keptFunction a index f)).1

/-- Adds a call of a unit, if it is taken over. -/
def joinCall (a : Arbitration) (index : Nat) (g : Graph) (c : Call) : Graph :=
  if keepsCall a index c then g.addCall c else g

/-- Joins the graph of a unit to a graph, without a table. -/
def joinUnit (a : Arbitration) (g : Graph) (p : UnitGraph) : Graph :=
  let g := p.graph.nodes.foldl (joinFunction a p.index) g
  let g := p.graph.calls.foldl (joinCall a p.index) g
  p.graph.diagnostics.foldl takeDiagnostic g

/-! ## The table -/

variable (a : Arbitration) {g g' : Graph} {keys : List FunctionKey} {table : List NodeId}

@[simp]
theorem key_keptFunction (index : Nat) (f : Function) : (keptFunction a index f).key = f.key := by
  rw [keptFunction]
  split <;> rfl

/-- The table gives the node of each of these keys, at the place of the key. -/
def Numbers (g : Graph) (keys : List FunctionKey) (table : List NodeId) : Prop :=
  keys.map g.nodeId? = table.map some

theorem Numbers.getElem? (h : Numbers g keys table) {i : Nat} {key : FunctionKey}
    (hkey : keys[i]? = some key) : ∃ id, table[i]? = some id ∧ g.nodeId? key = some id := by
  have hi := congrArg (·[i]?) h
  simp only [List.getElem?_map, hkey, Option.map_some] at hi
  obtain ⟨id, hid, hnode⟩ := Option.map_eq_some_iff.mp hi.symm
  exact ⟨id, hid, hnode.symm⟩

/-- The table stays right while the graph grows. -/
theorem Numbers.of_isPrefix (h : Numbers g keys table) (hpre : g.keys <+: g'.keys) :
    Numbers g' keys table := by
  refine List.ext_getElem? fun i => ?_
  have hi := congrArg (·[i]?) h
  simp only [List.getElem?_map] at hi ⊢
  cases hkey : keys[i]? with
  | none => rwa [hkey] at hi
  | some key =>
      obtain ⟨id, hid, hnode⟩ := h.getElem? hkey
      rw [hid, Option.map_some, Option.map_some, nodeId?_of_isPrefix hpre hnode]

theorem Numbers.takeFunction (h : Numbers g keys table) (index : Nat) (f : Function) :
    Numbers (joinFunction a index g f) (keys ++ [f.key])
      (takeFunction a index (g, table) f).2 := by
  have hnode := nodeId?_addFunction g (keptFunction a index f)
  rw [key_keptFunction] at hnode
  have hknown := h.of_isPrefix (isPrefix_keys_addFunction g (keptFunction a index f))
  rw [Numbers] at hknown ⊢
  simp [joinFunction, Merge.takeFunction, hknown, hnode]

/-- While the functions of a unit are added, their nodes are noted. -/
theorem Numbers.foldl_takeFunction (h : Numbers g keys table) (index : Nat) (fs : List Function) :
    (fs.foldl (Merge.takeFunction a index) (g, table)).1 = fs.foldl (joinFunction a index) g ∧
    Numbers (fs.foldl (joinFunction a index) g) (keys ++ fs.map (·.key))
      (fs.foldl (Merge.takeFunction a index) (g, table)).2 := by
  induction fs generalizing g keys table with
  | nil => exact ⟨rfl, by simpa using h⟩
  | cons f fs ih =>
      obtain ⟨hgraph, hnumbers⟩ := ih (h.takeFunction a index f)
      rw [List.append_assoc] at hnumbers
      exact ⟨hgraph, hnumbers⟩

/-! ## Edges -/

theorem keys_insertEdge (g : Graph) (e : Edge) (origin : Option String) :
    (g.insertEdge e origin).1.keys = g.keys := by
  rw [insertEdge]
  split <;> rfl

variable {p : UnitGraph}

/-- An edge goes between the nodes that a search for the keys of its ends finds. -/
theorem takeEdge_eq_joinCall (hp : p.graph.WellFormed) (h : Numbers g p.graph.keys table)
    {e : SourcedEdge} (he : e ∈ p.graph.edges) :
    takeEdge a p table g e = joinCall a p.index g (p.graph.callOf e) := by
  obtain ⟨hcaller, hcallee⟩ := hp.closed e he
  obtain ⟨source, hsource, hsourceNode⟩ := h.getElem? (getElem?_keyOf hcaller)
  obtain ⟨target, htarget, htargetNode⟩ := h.getElem? (getElem?_keyOf hcallee)
  have hedge : e.edge.remapped? table =
      some { e.edge with caller := source, callee := target } := by
    simp [Edge.remapped?, hsource, htarget]
  rw [takeEdge, joinCall, hedge]
  split
  · simp only [addCall, callOf, ensureNode, hsourceNode, htargetNode]
  · rfl

theorem isPrefix_keys_takeEdge (e : SourcedEdge) : g.keys <+: (takeEdge a p table g e).keys := by
  rw [takeEdge]
  split
  · split
    · exact (keys_insertEdge _ _ _).symm ▸ List.prefix_rfl
    · exact List.prefix_rfl
  · exact List.prefix_rfl

theorem foldl_takeEdge (hp : p.graph.WellFormed) (h : Numbers g p.graph.keys table)
    {edges : List SourcedEdge} (hedges : edges ⊆ p.graph.edges) :
    edges.foldl (takeEdge a p table) g =
      (edges.map p.graph.callOf).foldl (joinCall a p.index) g := by
  induction edges generalizing g with
  | nil => rfl
  | cons e edges ih =>
      obtain ⟨he, hrest⟩ := List.cons_subset.mp hedges
      rw [List.map_cons, List.foldl_cons, List.foldl_cons, ← takeEdge_eq_joinCall a hp h he]
      exact ih (h.of_isPrefix (isPrefix_keys_takeEdge a e)) hrest

/-- Joining a unit by the table is joining it by key. -/
theorem absorb_eq_joinUnit (hp : p.graph.WellFormed) (g : Graph) :
    absorb a g p = joinUnit a g p := by
  have hstart : Numbers g [] [] := rfl
  obtain ⟨hgraph, hnumbers⟩ := hstart.foldl_takeFunction a p.index p.graph.nodes
  rw [List.nil_append] at hnumbers
  rw [absorb, joinUnit, calls, ← foldl_takeEdge a hp hnumbers (List.Subset.refl _), ← hgraph]

theorem foldl_absorb_eq {units : List UnitGraph} (hunits : ∀ p ∈ units, p.graph.WellFormed)
    (g : Graph) : units.foldl (absorb a) g = units.foldl (joinUnit a) g :=
  List.foldl_ext _ _ g fun g p hp => absorb_eq_joinUnit a (hunits p hp) g

end Merge

end CallGraphs
