import CallGraphs.Proofs.Graph.Reachable
import CallGraphs.Proofs.Graph.Sorting
import Mathlib

/-!
# Graphs built from their parts

A graph that operations build has each key, each edge and each diagnostic once.  So
when its functions, calls and diagnostics are added to the empty graph one by one,
each function is new, each call finds both its ends, and each diagnostic is new: the
graph is built again as it was (`Graph.build_self`).
-/

namespace CallGraphs

open CallGraphs.Graph

/-- Two edges of a graph are different calls. -/
theorem Graph.pairwise_sameEdge {g : Graph} (hg : g.Regular) :
    g.calls.Pairwise fun a b => a.sameEdge b = false := by
  have hbare : g.calls.Pairwise fun a b => { a with origin := none } ≠ { b with origin := none } :=
    List.pairwise_map.mp (nodup_bareCalls hg.toWellFormed hg.distinct)
  refine hbare.imp fun {a b} hne => ?_
  rw [Bool.eq_false_iff]
  intro hsame
  obtain ⟨⟨⟨hcaller, hcallee⟩, hkind⟩, hconfidence⟩ := by simpa [Call.sameEdge] using hsame
  exact hne (by simp [hcaller, hcallee, hkind, hconfidence])

namespace Graph

theorem foldl_addFunction (l : List Function) (g : Graph)
    (hnodup : (g.keys ++ l.map (·.key)).Nodup) :
    l.foldl (fun g f => (g.addFunction f).1) g = { g with nodes := g.nodes ++ l } := by
  induction l generalizing g with
  | nil => simp
  | cons f l ih =>
      have hnew : f.key ∉ g.keys := fun hmem =>
        (List.nodup_middle.mp hnodup).notMem (List.mem_append_left _ hmem)
      have hadd : (g.addFunction f).1 = { g with nodes := g.nodes ++ [f] } := by
        rw [addFunction, nodeId?_eq_none_iff.mpr hnew]
      rw [List.foldl_cons, hadd, ih]
      · simp
      · simpa [keys] using hnodup

/-- A call between nodes of a graph adds its edge, if that is new. -/
theorem addCall_callOf {g g' : Graph} (hn : g'.keys.Nodup) (hkeys : g.keys = g'.keys)
    {e : SourcedEdge} (hcaller : e.edge.caller < g.size) (hcallee : e.edge.callee < g.size)
    (hnew : e.edge ∉ g'.edges.map (·.edge)) :
    g'.addCall (g.callOf e) = { g' with edges := g'.edges ++ [e] } := by
  have hsize : g.size = g'.size := by rw [← length_keys, ← length_keys, hkeys]
  have hid : ∀ {id}, id < g.size → g'.nodeId? (g.keyOf id) = some id := by
    intro id hid
    rw [keyOf_eq, hkeys, ← keyOf_eq]
    exact nodeId?_keyOf hn (hsize ▸ hid)
  have hends : ∀ {id}, id < g.size → g'.ensureNode (g.keyOf id) = (g', id) := by
    intro id hlt
    rw [ensureNode, hid hlt]
  have hadmits : g'.admits e.edge = true := by
    rw [hsize] at hcaller hcallee
    simp [admits, hcaller, hcallee]
  have hfresh : g'.containsEdge e.edge = false := by
    rw [containsEdge, List.any_eq_false]
    intro x hx
    simp only [decide_eq_true_eq]
    intro heq
    exact hnew (heq ▸ List.mem_map_of_mem hx)
  simp only [addCall, callOf, hends hcaller, hends hcallee]
  rw [insertEdge]
  simp [hadmits, hfresh]

theorem foldl_addCall {g : Graph} (hg : g.WellFormed) (l : List SourcedEdge) (g' : Graph)
    (hkeys : g.keys = g'.keys)
    (hclosed : ∀ e ∈ l, e.edge.caller < g.size ∧ e.edge.callee < g.size)
    (hdistinct : (g'.edges.map (·.edge) ++ l.map (·.edge)).Nodup) :
    (l.map g.callOf).foldl addCall g' = { g' with edges := g'.edges ++ l } := by
  induction l generalizing g' with
  | nil => simp
  | cons e l ih =>
      have hnew : e.edge ∉ g'.edges.map (·.edge) := fun hmem =>
        (List.nodup_middle.mp hdistinct).notMem (List.mem_append_left _ hmem)
      obtain ⟨hcaller, hcallee⟩ := hclosed e List.mem_cons_self
      rw [List.map_cons, List.foldl_cons, addCall_callOf (hkeys ▸ hg.nodup) hkeys hcaller hcallee
        hnew, ih]
      · simp
      · exact hkeys
      · exact fun e he => hclosed e (List.mem_cons_of_mem _ he)
      · simpa using hdistinct

theorem foldl_addDiagnostic (l : List Diagnostic) (g : Graph)
    (hnodup : (g.diagnostics ++ l).Nodup) :
    l.foldl addDiagnostic g = { g with diagnostics := g.diagnostics ++ l } := by
  induction l generalizing g with
  | nil => simp
  | cons d l ih =>
      have hnew : d ∉ g.diagnostics := fun hmem =>
        (List.nodup_middle.mp hnodup).notMem (List.mem_append_left _ hmem)
      rw [List.foldl_cons, addDiagnostic, if_neg hnew, ih]
      · simp
      · simpa using hnodup

/-- A graph is built from its own functions, calls and diagnostics. -/
theorem build_self {g : Graph} (hg : g.Regular) : build g.nodes g.calls g.diagnostics = g := by
  have hnodes := foldl_addFunction g.nodes empty (by simpa [keys, empty] using hg.nodup)
  have hedges := foldl_addCall hg.toWellFormed g.edges { nodes := g.nodes } rfl hg.closed
    (by simpa [DistinctEdges] using hg.distinct)
  have hdiagnostics := foldl_addDiagnostic g.diagnostics { nodes := g.nodes, edges := g.edges }
    (by simpa using hg.noted)
  rw [build, hnodes]
  simp only [calls, empty, List.nil_append] at *
  rw [hedges, hdiagnostics]

end Graph

end CallGraphs
