import CallGraphs.Proofs.Graph.Arena
import CallGraphs.Proofs.Graph.Distances
import Mathlib.Order.Bounds.Defs

/-!
# What a traversal of a graph reports

Traversals search node by node, along the edges that leave a node or along those
that reach it.  What they report is told by the edges alone.

* A function is reported once, at the length of a shortest walk to it that has an
  edge, if that is within the depth (`Graph.mem_calleesWithin_iff`).  So the start is
  reported if it lies on a cycle, at the length of its shortest cycle.
* A walk backwards is a walk of the same length, so the functions that call a
  function are found at the distances at which they find it.
* A traversal as deep as there are functions comes to all that can be reached
  (`Graph.mem_reachableFrom_iff`), and more depth adds nothing.
* A graph that is kept in tables reports the same, read from its tables
  (`Arena.Represents.bfs`).
-/

namespace CallGraphs

namespace Graph

variable {g : Graph} {key f : FunctionKey} {depth d : Nat}

theorem mem_calleesWithin_iff (hg : g.WellFormed) :
    (f, d) ∈ g.calleesWithin key depth ↔ d ≤ depth ∧ Shortest g.Calls d key f :=
  mem_bfs_iff_shortest hg true

theorem mem_callersWithin_iff (hg : g.WellFormed) :
    (f, d) ∈ g.callersWithin key depth ↔ d ≤ depth ∧ Shortest (flip g.Calls) d key f :=
  mem_bfs_iff_shortest hg false

/-- There are no more functions than can be counted, so a traversal of the greatest depth that can
be asked for comes to all that calls lead to. -/
theorem mem_reachableFrom_iff (hg : g.WellFormed) (hsize : g.size < wordLimit) :
    f ∈ g.reachableFrom key ↔ Relation.TransGen g.Calls key f :=
  mem_keys_bfs_iff hg true (Nat.le_sub_one_of_lt hsize)

/-! ## Main statement -/

/-- Traversals report the shortest distances, each function once.  The functions that call a
function are those that it is found from, at the same distance; and what can be reached is the least
set that has the callees of the start and all callees of its members.  Tables that hold the graph
report the same. -/
theorem traversal_exact (hg : g.Reachable) (key : FunctionKey) (depth : Nat) :
    ((g.calleesWithin key depth).map (·.1)).Nodup ∧
    (∀ f d, (f, d) ∈ g.calleesWithin key depth ↔ d ≤ depth ∧ Shortest g.Calls d key f) ∧
    ((g.callersWithin key depth).map (·.1)).Nodup ∧
    (∀ f d, (f, d) ∈ g.callersWithin key depth ↔ (key, d) ∈ g.calleesWithin f depth) ∧
    (g.size < wordLimit →
      IsLeast {s : Set FunctionKey |
        (∀ f ∈ g.callees key, f ∈ s) ∧ ∀ a ∈ s, ∀ f ∈ g.callees a, f ∈ s}
        {f | f ∈ g.reachableFrom key}) ∧
    ∀ a : Arena, a.Represents g →
      a.calleesWithin key depth = g.calleesWithin key depth ∧
      a.callersWithin key depth = g.callersWithin key depth ∧
      a.reachableFrom key = g.reachableFrom key := by
  have hwell := hg.regular.toWellFormed
  have hcallees : ∀ a f, f ∈ g.callees a ↔ g.Calls a f := hwell.answersByEdges.callees
  refine ⟨(g.bfs key depth true).nodup_keys, fun f d => mem_calleesWithin_iff hwell,
    (g.bfs key depth false).nodup_keys, fun f d => ?_, fun hsize => ⟨⟨?_, ?_⟩, ?_⟩,
    fun a ha => ⟨?_, ?_, ?_⟩⟩
  · rw [mem_callersWithin_iff hwell, mem_calleesWithin_iff hwell]
    exact and_congr_right fun _ => ⟨Shortest.reverse, Shortest.reverse⟩
  · intro f hf
    exact (mem_reachableFrom_iff hwell hsize).mpr (.single ((hcallees key f).mp hf))
  · intro a ha f hf
    have hreached := (mem_reachableFrom_iff hwell hsize).mp ha
    exact (mem_reachableFrom_iff hwell hsize).mpr (hreached.tail ((hcallees a f).mp hf))
  · rintro s ⟨hstart, hclosed⟩ f hf
    have hreached := (mem_reachableFrom_iff hwell hsize).mp hf
    induction hreached with
    | single hcall => exact hstart _ ((hcallees _ _).mpr hcall)
    | tail hbefore hcall ih =>
        have hmember := ih ((mem_reachableFrom_iff hwell hsize).mpr hbefore)
        exact hclosed _ hmember _ ((hcallees _ _).mpr hcall)
  · rw [Arena.calleesWithin, ha.bfs, calleesWithin]
  · rw [Arena.callersWithin, ha.bfs, callersWithin]
  · rw [Arena.reachableFrom, ha.bfs, reachableFrom]

/-- What an event loop is asked to take in: it polls and dispatches, directly and through a pointer,
and what is called there. -/
def eventRequests : List Request :=
  [.ensureNode "loop", .ensureNode "poll", .ensureNode "dispatch", .ensureNode "handler",
    .addEdge ⟨0, 1, .direct, .definite⟩ none, .addEdge ⟨1, 2, .direct, .definite⟩ none,
    .addEdge ⟨1, 2, .pointer, .may⟩ none, .addEdge ⟨2, 0, .direct, .definite⟩ none,
    .addEdge ⟨2, 3, .virtual, .may⟩ none]

/-- The graph of an event loop. -/
def eventLoop : Graph := after eventRequests

/-- The loop is on a cycle of three calls, and found at that distance in either direction. -/
theorem eventLoop_traversed : eventLoop.Reachable ∧
    eventLoop.calleesWithin "loop" 3 =
      [("dispatch", 2), ("handler", 3), ("loop", 3), ("poll", 1)] ∧
    ("loop", 3) ∈ eventLoop.callersWithin "loop" 3 ∧
    Shortest eventLoop.Calls 3 "loop" "loop" ∧ "handler" ∈ eventLoop.reachableFrom "poll" ∧
    (Arena.after eventRequests).calleesWithin "loop" 3 = eventLoop.calleesWithin "loop" 3 := by
  have hreachable : eventLoop.Reachable := reachable_after _
  have hfound : eventLoop.calleesWithin "loop" 3 =
      [("dispatch", 2), ("handler", 3), ("loop", 3), ("poll", 1)] := by cbv
  have hself : ("loop", 3) ∈ eventLoop.calleesWithin "loop" 3 := by
    rw [hfound]
    decide
  obtain ⟨-, hshortest, -, hdual, -, htables⟩ := traversal_exact hreachable "loop" 3
  obtain ⟨-, -, -, -, hleast, -⟩ := traversal_exact hreachable "poll" 1
  obtain ⟨⟨hcallees, hclosed⟩, -⟩ := hleast (by decide)
  have hdispatch : "dispatch" ∈ eventLoop.callees "poll" := by decide
  have hhandler : "handler" ∈ eventLoop.callees "dispatch" := by decide
  exact ⟨hreachable, hfound, (hdual "loop" 3).mpr hself, ((hshortest "loop" 3).mp hself).2,
    hclosed _ (hcallees _ hdispatch) _ hhandler,
    (htables _ (Arena.represents_after eventRequests)).1⟩

end Graph

end CallGraphs
