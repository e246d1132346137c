import CallGraphs.Graph.Distance
import CallGraphs.Proofs.Distances
import CallGraphs.Proofs.Graph.Requests
import CallGraphs.Proofs.QueueSearch

/-!
# Distances that a traversal of a graph finds

A traversal is a search by a queue that keeps what it finds in a map by key.  While
it runs the map has the functions at the nodes that were reached, each at the
distance of the step that reached it first (`Traversal.Matches`): the start is among
the visited nodes from the beginning, but it has an entry only when a step has come
back to it.  So a traversal finds what a search by layers comes to
(`Graph.mem_bfs_iff`).  Keys are other names for nodes (`Graph.renames`), so what it
finds is told by the calls alone (`Graph.mem_bfs_iff_shortest`).
-/

namespace CallGraphs

/-! ## A traversal as a search by a queue -/

namespace Traversal

variable {keyOf : NodeId → FunctionKey} {start : NodeId} {inside : NodeId → Prop}
  {t : Traversal} {s : Standing NodeId NodeId}

/-- A traversal stands where a search by a queue stands, all of it at certain nodes. -/
structure Matches (keyOf : NodeId → FunctionKey) (start : NodeId) (inside : NodeId → Prop)
    (t : Traversal) (s : Standing NodeId NodeId) : Prop where
  queue : t.queue = s.queue
  visited : ∀ n, n ∈ t.visited ↔ n = start ∨ n ∈ s.reached.map (·.1)
  found : ∀ f d, (f, d) ∈ t.found.entries ↔ ∃ n, (n, d) ∈ s.reached ∧ keyOf n = f
  inside : ∀ p ∈ s.reached, inside p.1

theorem matches_start (keyOf : NodeId → FunctionKey) (start : NodeId) (inside : NodeId → Prop) :
    Matches keyOf start inside (.start start) ⟨[(start, 0)], []⟩ where
  queue := rfl
  visited n := by simp [Traversal.start]
  found f d := by simp [Traversal.start, SortedMap.empty]
  inside p hp := absurd hp List.not_mem_nil

theorem mem_keys_iff (h : Matches keyOf start inside t s) {f : FunctionKey} :
    f ∈ t.found.keys ↔ ∃ p ∈ s.reached, keyOf p.1 = f := by
  rw [SortedMap.keys, List.mem_map]
  constructor
  · rintro ⟨⟨f, d⟩, hmem, rfl⟩
    obtain ⟨n, hn, hkey⟩ := (h.found f d).mp hmem
    exact ⟨(n, d), hn, hkey⟩
  · rintro ⟨⟨n, d⟩, hn, rfl⟩
    exact ⟨(keyOf n, d), (h.found _ d).mpr ⟨n, hn, rfl⟩, rfl⟩

section
variable (hinj : ∀ m n, inside m → inside n → keyOf m = keyOf n → m = n)
include hinj

/-- A node that is reached for the first time gets an entry. -/
theorem Matches.insert (h : Matches keyOf start inside t s) {node : NodeId} (hnode : inside node)
    (hnew : node ∉ s.reached.map (·.1)) (d : Nat) (f : FunctionKey) (d' : Nat) :
    (f, d') ∈ (t.found.insert (keyOf node) d).entries ↔
      ∃ n, (n, d') ∈ s.reached ++ [(node, d)] ∧ keyOf n = f := by
  rw [SortedMap.mem_insert, h.found]
  constructor
  · rintro (heq | ⟨⟨n, hn, rfl⟩, -⟩)
    · obtain ⟨rfl, rfl⟩ := Prod.mk.inj heq
      exact ⟨node, by simp, rfl⟩
    · exact ⟨n, List.mem_append_left _ hn, rfl⟩
  · rintro ⟨n, hn, rfl⟩
    rcases List.mem_append.mp hn with hn | hn
    · refine .inr ⟨⟨n, hn, rfl⟩, fun heq => hnew ?_⟩
      exact hinj n node (h.inside _ hn) hnode heq ▸ List.mem_map_of_mem hn
    · obtain ⟨rfl, rfl⟩ := Prod.mk.inj (List.mem_singleton.mp hn)
      exact .inl rfl

/-- To look at a neighbour is to take the step to it. -/
theorem Matches.look (h : Matches keyOf start inside t s) (hstart : inside start) {node : NodeId}
    (hnode : inside node) (d : Nat) : Matches keyOf start inside
      (t.look keyOf start d node) (s.take [] id start d node) := by
  have hseen : node ∈ Standing.seen [] id s.reached ↔ node ∈ s.reached.map (·.1) := by
    simp [Standing.seen]
  rw [Traversal.look, Standing.take]
  simp only [hseen, id_eq]
  by_cases hreached : node ∈ s.reached.map (·.1)
  · -- the start has its entry already, so nothing changes
    have hkept : (if node = start then t.found.insertNew (keyOf node) (d + 1) else t.found) =
        t.found := by
      obtain ⟨p, hp, rfl⟩ := List.mem_map.mp hreached
      rw [SortedMap.insertNew, if_pos ((mem_keys_iff h).mpr ⟨p, hp, rfl⟩), ite_self]
    rw [if_pos hreached, hkept, if_pos ((h.visited node).mpr (.inr hreached))]
    exact h
  · rw [if_neg hreached]
    by_cases hsame : node = start
    · subst hsame
      have hnew : keyOf node ∉ t.found.keys := by
        intro hmem
        obtain ⟨p, hp, heq⟩ := (mem_keys_iff h).mp hmem
        exact hreached (hinj _ _ (h.inside p hp) hnode heq ▸ List.mem_map_of_mem hp)
      rw [if_pos rfl, if_pos rfl, SortedMap.insertNew, if_neg hnew,
        if_pos ((h.visited node).mpr (.inl rfl))]
      refine ⟨h.queue, fun n => ?_, h.insert hinj hnode hreached (d + 1), ?_⟩
      · rw [h.visited, List.map_append, List.mem_append]
        simp only [List.map_cons, List.map_nil, List.mem_singleton]
        tauto
      · simp only [List.mem_append, List.mem_singleton]
        rintro p (hp | rfl)
        · exact h.inside p hp
        · exact hnode
    · have hvisited : node ∉ t.visited := by
        rw [h.visited]
        exact fun hor => hor.elim hsame hreached
      rw [if_neg hsame, if_neg hsame, if_neg hvisited]
      refine ⟨congrArg (· ++ _) h.queue, fun n => ?_, h.insert hinj hnode hreached (d + 1), ?_⟩
      · rw [List.mem_cons, h.visited, List.map_append, List.mem_append]
        simp only [List.map_cons, List.map_nil, List.mem_singleton]
        tauto
      · simp only [List.mem_append, List.mem_singleton]
        rintro p (hp | rfl)
        · exact h.inside p hp
        · exact hnode

/-- A traversal runs as a search by a queue does. -/
theorem Matches.exists_drains {neighbours : NodeId → List NodeId} {all : List NodeId}
    (hall : ∀ n, neighbours n ⊆ all) (hinside : ∀ n ∈ all, inside n) (hstart : inside start)
    (h : Matches keyOf start inside t s) (depth : Nat) :
    ∃ out, Drains neighbours id start [] depth s out ∧
      ∀ f d, (f, d) ∈ (run keyOf neighbours start depth all hall t).entries ↔
        ∃ n, (n, d) ∈ out ∧ keyOf n = f := by
  induction t using run.induct keyOf neighbours start depth all hall generalizing s with
  | case1 found visited =>
      obtain ⟨queue, reached⟩ := s
      obtain rfl : [] = queue := h.queue
      rw [run]
      exact ⟨reached, .done, h.found⟩
  | case2 found visited node distance rest hcut ih =>
      obtain ⟨queue, reached⟩ := s
      obtain rfl : (node, distance) :: rest = queue := h.queue
      obtain ⟨out, hdrains, hout⟩ := @ih ⟨rest, reached⟩ ⟨rfl, h.visited, h.found, h.inside⟩
      rw [run, if_pos hcut]
      exact ⟨out, .cut hcut hdrains, hout⟩
  | case3 found visited node distance rest hcut ih =>
      obtain ⟨queue, reached⟩ := s
      obtain rfl : (node, distance) :: rest = queue := h.queue
      have hrow : Matches keyOf start inside
          ((neighbours node).foldl (Traversal.look keyOf start distance) ⟨found, visited, rest⟩)
          ((neighbours node).foldl (Standing.take [] id start distance) ⟨rest, reached⟩) :=
        List.foldl_rel ⟨rfl, h.visited, h.found, h.inside⟩ fun n hn _ _ hmatch =>
          hmatch.look hinj hstart (hinside n (hall node hn)) distance
      obtain ⟨out, hdrains, hout⟩ := ih hrow
      rw [run, if_neg hcut]
      exact ⟨out, .leave (Nat.lt_of_not_le hcut) hdrains, hout⟩

end

end Traversal

/-! ## Keys as names of nodes -/

namespace Graph

variable {g : Graph} {forward : Bool} {key f : FunctionKey} {depth d : Nat}

/-- Some edge leads from one function to another. -/
def Calls (g : Graph) (a b : FunctionKey) : Prop := ∃ e ∈ g.edges, g.Joins a b e.edge

/-- One step from a function to another, along the calls or against them. -/
def Along (g : Graph) (forward : Bool) : FunctionKey → FunctionKey → Prop :=
  if forward then g.Calls else flip g.Calls

theorem mem_successors {i j : NodeId} :
    j ∈ g.successors i ↔ ∃ e ∈ g.edges, e.edge.caller = i ∧ e.edge.callee = j := by
  simp only [successors, edgesFrom, List.mem_map, List.mem_filter, decide_eq_true_eq]
  constructor
  · rintro ⟨_, ⟨⟨e, he, rfl⟩, rfl⟩, rfl⟩
    exact ⟨e, he, rfl, rfl⟩
  · rintro ⟨e, he, rfl, rfl⟩
    exact ⟨_, ⟨⟨e, he, rfl⟩, rfl⟩, rfl⟩

theorem mem_predecessors {i j : NodeId} :
    j ∈ g.predecessors i ↔ ∃ e ∈ g.edges, e.edge.callee = i ∧ e.edge.caller = j := by
  simp only [predecessors, edgesTo, List.mem_map, List.mem_filter, decide_eq_true_eq]
  constructor
  · rintro ⟨_, ⟨⟨e, he, rfl⟩, rfl⟩, rfl⟩
    exact ⟨e, he, rfl, rfl⟩
  · rintro ⟨e, he, rfl, rfl⟩
    exact ⟨_, ⟨⟨e, he, rfl⟩, rfl⟩, rfl⟩

/-- The ends of edges are in the graph. -/
theorem lt_size_of_mem_ends (hg : g.WellFormed) {n : NodeId} (hn : n ∈ g.ends) : n < g.size := by
  obtain ⟨e, he, hn⟩ := List.mem_flatMap.mp hn
  obtain ⟨hcaller, hcallee⟩ := hg.closed e he
  simp only [List.mem_cons, List.not_mem_nil, or_false] at hn
  rcases hn with rfl | rfl
  · exact hcaller
  · exact hcallee

/-- A step between nodes is a step between their functions. -/
theorem along_of_mem_neighbours {i j : NodeId} (hj : j ∈ g.neighbours forward i) :
    g.Along forward (g.keyOf i) (g.keyOf j) := by
  cases forward with
  | true =>
      obtain ⟨e, he, rfl, rfl⟩ := mem_successors.mp hj
      exact ⟨e, he, rfl, rfl⟩
  | false =>
      obtain ⟨e, he, rfl, rfl⟩ := mem_predecessors.mp hj
      exact ⟨e, he, rfl, rfl⟩

theorem exists_mem_neighbours_of_along (hg : g.WellFormed) {i : NodeId} (hi : i < g.size)
    (hf : g.Along forward (g.keyOf i) f) : ∃ j ∈ g.neighbours forward i, g.keyOf j = f := by
  cases forward with
  | true =>
      obtain ⟨e, he, hcaller, rfl⟩ := hf
      have hsame := keyOf_injOn hg.nodup (hg.closed e he).1 hi hcaller
      exact ⟨e.edge.callee, mem_successors.mpr ⟨e, he, hsame, rfl⟩, rfl⟩
  | false =>
      obtain ⟨e, he, rfl, hcallee⟩ := hf
      have hsame := keyOf_injOn hg.nodup (hg.closed e he).2 hi hcallee
      exact ⟨e.edge.caller, mem_predecessors.mpr ⟨e, he, hsame, rfl⟩, rfl⟩

/-- Steps start at functions of the graph. -/
theorem mem_keys_of_along (hg : g.WellFormed) (h : g.Along forward key f) : key ∈ g.keys := by
  have hkeys : ∀ {n}, n < g.size → g.keyOf n ∈ g.keys := fun hn =>
    List.mem_of_getElem? (getElem?_of_nodeId? (nodeId?_keyOf hg.nodup hn))
  cases forward with
  | true =>
      obtain ⟨e, he, rfl, -⟩ := h
      exact hkeys (hg.closed e he).1
  | false =>
      obtain ⟨e, he, -, rfl⟩ := h
      exact hkeys (hg.closed e he).2

/-- Walks by key and walks by node are the same walks. -/
theorem renames (hg : g.WellFormed) :
    Renames (LeadsTo (g.neighbours forward) id) (g.Along forward) g.keyOf (· < g.size) where
  into _ hstep := by
    have hmem := leadsTo_id.mp hstep
    exact ⟨lt_size_of_mem_ends hg (g.neighbours_subset_ends forward _ hmem),
      along_of_mem_neighbours hmem⟩
  back ha hstep := by
    obtain ⟨b, hb, hkey⟩ := exists_mem_neighbours_of_along hg ha hstep
    exact ⟨b, leadsTo_id.mpr hb, hkey⟩
  inj ha hb heq := keyOf_injOn hg.nodup ha hb heq

/-! ## What a traversal finds -/

/-- A traversal finds the functions at the nodes that a search by layers comes to. -/
theorem mem_bfs_iff (hg : g.WellFormed) {start : NodeId} (hstart : g.nodeId? key = some start) :
    (f, d) ∈ (g.bfs key depth forward).entries ↔
      ∃ n, (n, d) ∈ arrivals (g.neighbours forward) id depth 0 [start] [] ∧ g.keyOf n = f := by
  have hmatch := Traversal.matches_start g.keyOf start (· < g.size)
  obtain ⟨out, hdrains, hout⟩ := hmatch.exists_drains
    (fun m n hm hn heq => keyOf_injOn hg.nodup hm hn heq) (g.neighbours_subset_ends forward)
    (fun n hn => lt_size_of_mem_ends hg hn) (lt_size_of_nodeId? hstart) depth
  rw [bfs, hstart, ← hdrains.eq_arrivals]
  exact hout f d

theorem bfs_of_notMem_keys (hkey : key ∉ g.keys) (depth : Nat) (forward : Bool) :
    g.bfs key depth forward = .empty := by
  rw [bfs, nodeId?_eq_none_iff.mpr hkey]

/-- A traversal finds a function at its distance, if that is within the depth. -/
theorem mem_bfs_iff_shortest (hg : g.WellFormed) (forward : Bool) :
    (f, d) ∈ (g.bfs key depth forward).entries ↔
      d ≤ depth ∧ Shortest (g.Along forward) d key f := by
  by_cases hkey : key ∈ g.keys
  · obtain ⟨start, hstart⟩ := node_mem_features.mp hkey
    obtain rfl := keyOf_of_nodeId? hstart
    rw [mem_bfs_iff hg hstart, (renames hg).shortest_iff (lt_size_of_nodeId? hstart)]
    constructor
    · rintro ⟨n, hn, rfl⟩
      obtain ⟨hle, hshort⟩ := exists_arrival_iff.mp ⟨n, hn, rfl⟩
      exact ⟨hle, n, hshort, rfl⟩
    · rintro ⟨hle, n, hshort, rfl⟩
      obtain ⟨m, hm, rfl⟩ := exists_arrival_iff.mpr ⟨hle, hshort⟩
      exact ⟨m, hm, rfl⟩
  · rw [bfs_of_notMem_keys hkey]
    constructor
    · exact fun h => absurd h List.not_mem_nil
    · rintro ⟨-, hshort⟩
      have hreached := transGen_iff_exists_walk.mpr ⟨d, hshort.pos, hshort.walk⟩
      obtain ⟨next, hfirst, -⟩ := Relation.TransGen.head'_iff.mp hreached
      exact absurd (mem_keys_of_along hg hfirst) hkey

/-- A traversal of enough depth finds all that steps lead to. -/
theorem mem_keys_bfs_iff (hg : g.WellFormed) (forward : Bool) (hdepth : g.size ≤ depth) :
    f ∈ (g.bfs key depth forward).keys ↔ Relation.TransGen (g.Along forward) key f := by
  rw [SortedMap.keys, List.mem_map]
  constructor
  · rintro ⟨⟨f, d⟩, hmem, rfl⟩
    obtain ⟨-, hshort⟩ := (mem_bfs_iff_shortest hg forward).mp hmem
    exact transGen_iff_exists_walk.mpr ⟨d, hshort.pos, hshort.walk⟩
  · intro hreached
    obtain ⟨next, hfirst, -⟩ := Relation.TransGen.head'_iff.mp hreached
    obtain ⟨start, hstart⟩ := node_mem_features.mp (mem_keys_of_along hg hfirst)
    obtain rfl := keyOf_of_nodeId? hstart
    -- the same walk by nodes, of which there are no more than the depth
    obtain ⟨n, hpos, hwalk⟩ := transGen_iff_exists_walk.mp hreached
    obtain ⟨node, hwalk', rfl⟩ := (renames hg).exists_walk (lt_size_of_nodeId? hstart) hwalk
    have hnodes : ∀ i, ∀ j ∈ g.neighbours forward i, id j ∈ List.range g.size := fun i j hj =>
      List.mem_range.mpr (lt_size_of_mem_ends hg (g.neighbours_subset_ends forward i hj))
    have hsize : (List.range g.size).length ≤ depth := by simpa using hdepth
    obtain ⟨⟨m, d⟩, hm, rfl⟩ :=
      (reports_iff hnodes hsize).mpr (transGen_iff_exists_walk.mpr ⟨n, hpos, hwalk'⟩)
    exact ⟨(g.keyOf m, d), (mem_bfs_iff hg hstart).mpr ⟨m, hm, rfl⟩, rfl⟩

end Graph

end CallGraphs
