import CallGraphs.Proofs.Graph.Traits

/-!
# Graphs that operations build

A graph is built from the empty one by operations: functions, links, edges and
diagnostics are added, and what is known of a function changes.  Each operation
keeps what the graph rests on (`Operation.regular`): one key has one node, edges
have both their ends in the graph, and no edge and no diagnostic is there twice.
So all of it holds of every graph that operations build (`Reachable.regular`).
-/

namespace CallGraphs

namespace Graph

/-- One operation on a graph.  The key of a function is how the graph finds it, so nothing changes
the key of a node, and an edge is added only between nodes. -/
inductive Operation : Graph → Graph → Prop
  | addFunction (g : Graph) (f : Function) : Operation g (g.addFunction f).1
  | ensureNode (g : Graph) (key : FunctionKey) : Operation g (g.ensureNode key).1
  | ensureStub (g : Graph) (key : FunctionKey) : Operation g (g.ensureStub key).1
  | linkOverride (g : Graph) (overrider base : FunctionKey) :
      Operation g (g.linkOverride overrider base)
  | modifyNode (g : Graph) (id : NodeId) (change : Function → Function) :
      (∀ f, (change f).key = f.key) → Operation g (g.modifyNode id change)
  | insertEdge (g : Graph) (e : Edge) (origin : Option String) :
      g.admits e = true → Operation g (g.insertEdge e origin).1
  | addDiagnostic (g : Graph) (d : Diagnostic) : Operation g (g.addDiagnostic d)

/-- The graph is built by operations. -/
def Reachable (g : Graph) : Prop := Relation.ReflTransGen Operation empty g

/-- One key has one node, edges have both their ends in the graph, and no edge and no diagnostic is
there twice. -/
structure Regular (g : Graph) : Prop extends WellFormed g where
  distinct : g.DistinctEdges
  noted : g.diagnostics.Nodup

theorem regular_empty : empty.Regular :=
  ⟨wellFormed_empty, List.nodup_nil, List.nodup_nil⟩

/-! ## Operations on nodes -/

/-- Operations on nodes leave edges and diagnostics as they are. -/
structure NodesOnly (g g' : Graph) : Prop where
  edges : g'.edges = g.edges
  diagnostics : g'.diagnostics = g.diagnostics

namespace NodesOnly

variable {g g' g'' : Graph}

theorem refl (g : Graph) : NodesOnly g g := ⟨rfl, rfl⟩

theorem trans (h : NodesOnly g g') (h' : NodesOnly g' g'') : NodesOnly g g'' :=
  ⟨h'.edges.trans h.edges, h'.diagnostics.trans h.diagnostics⟩

theorem regular (h : NodesOnly g g') (hg : g.Regular) (hwell : g'.WellFormed) : g'.Regular where
  toWellFormed := hwell
  distinct := by
    rw [DistinctEdges, h.edges]
    exact hg.distinct
  noted := by
    rw [h.diagnostics]
    exact hg.noted

end NodesOnly

theorem nodesOnly_modifyNode (g : Graph) (id : NodeId) (change : Function → Function) :
    NodesOnly g (g.modifyNode id change) := ⟨rfl, rfl⟩

theorem nodesOnly_addFunction (g : Graph) (f : Function) : NodesOnly g (g.addFunction f).1 := by
  rw [Graph.addFunction]
  split
  · exact nodesOnly_modifyNode g _ _
  · exact ⟨rfl, rfl⟩

theorem nodesOnly_ensureNode (g : Graph) (key : FunctionKey) :
    NodesOnly g (g.ensureNode key).1 := by
  rw [Graph.ensureNode]
  split
  · exact .refl g
  · exact nodesOnly_addFunction g _

theorem nodesOnly_linkOverride (g : Graph) (overrider base : FunctionKey) :
    NodesOnly g (g.linkOverride overrider base) := by
  have hends := (nodesOnly_ensureNode g overrider).trans
    (nodesOnly_ensureNode (g.ensureNode overrider).1 base)
  rw [Graph.linkOverride]
  dsimp only
  split
  · exact hends
  · exact (hends.trans (nodesOnly_modifyNode _ _ _)).trans (nodesOnly_modifyNode _ _ _)

/-! ## Step and run -/

variable {g g' : Graph}

theorem wellFormed_modifyNode (hg : g.WellFormed) (id : NodeId) {change : Function → Function}
    (hkey : ∀ f, (change f).key = f.key) : (g.modifyNode id change).WellFormed where
  nodup := by
    rw [keys_modifyNode hkey]
    exact hg.nodup
  closed := by
    have hsize : (g.modifyNode id change).size = g.size := by
      rw [← length_keys, ← length_keys, keys_modifyNode hkey]
    rw [hsize]
    exact hg.closed

theorem regular_insertEdge (hg : g.Regular) {e : Edge} (hadmits : g.admits e = true)
    (origin : Option String) : (g.insertEdge e origin).1.Regular := by
  obtain ⟨hcaller, hcallee⟩ := by simpa [admits] using hadmits
  have hadds := adds_insertEdge hg.toWellFormed hcaller hcallee e.kind e.confidence origin
  refine ⟨hadds.wellFormed, (evolves_insertEdge e origin).distinct hg.distinct, ?_⟩
  rw [insertEdge]
  split
  · exact hg.noted
  · exact hg.noted

theorem regular_addDiagnostic (hg : g.Regular) (d : Diagnostic) : (g.addDiagnostic d).Regular := by
  have hadds := adds_addDiagnostic hg.toWellFormed d
  refine ⟨hadds.wellFormed, (evolves_addDiagnostic d).distinct hg.distinct, ?_⟩
  rw [addDiagnostic]
  split
  · exact hg.noted
  · next hnew =>
    exact List.nodup_append_comm.mp (List.nodup_cons.mpr ⟨hnew, hg.noted⟩)

theorem Operation.regular (h : Operation g g') (hg : g.Regular) : g'.Regular := by
  cases h with
  | addFunction f =>
      exact (nodesOnly_addFunction g f).regular hg (adds_addFunction hg.toWellFormed f).wellFormed
  | ensureNode key =>
      exact (nodesOnly_ensureNode g key).regular hg
        (located_ensureNode hg.toWellFormed key).wellFormed
  | ensureStub key =>
      rw [Graph.ensureStub]
      split
      · exact hg
      · exact (nodesOnly_addFunction g _).regular hg
          (adds_addFunction hg.toWellFormed _).wellFormed
  | linkOverride overrider base =>
      exact (nodesOnly_linkOverride g overrider base).regular hg
        (adds_linkOverride hg.toWellFormed overrider base).wellFormed
  | modifyNode id change hkey =>
      exact (nodesOnly_modifyNode g id change).regular hg
        (wellFormed_modifyNode hg.toWellFormed id hkey)
  | insertEdge e origin hadmits => exact regular_insertEdge hg hadmits origin
  | addDiagnostic d => exact regular_addDiagnostic hg d

theorem Reachable.regular (h : g.Reachable) : g.Regular := by
  induction h with
  | refl => exact regular_empty
  | tail _ hstep ih => exact hstep.regular ih

end Graph

end CallGraphs
