import CallGraphs.Graph.Distance
import CallGraphs.Proofs.Graph.Requests
import Mathlib

/-!
# Graphs kept in tables

To find the node of a key or the edges at a node, a graph searches its lists.  An
arena keeps the same graph in tables that answer at once: an index of the keys,
the set of the edges, and for every node the positions of the edges that leave
and that reach it.  The tables repeat what the lists say, so one request changes
several of them.

`Represents` says what the tables hold when the arena stands for a graph, and
every request keeps that (`represents_serve`).  So after any requests the tables
are in step with each other (`Represents.inStep`), and the arena answers as the
graph does (`Represents.answersAs`), traversals included (`Represents.bfs`).
-/

namespace CallGraphs

deriving instance Hashable for EdgeKind, Confidence, Edge
deriving instance Hashable for UnresolvedReason, Finding, Diagnostic

/-- A call graph in tables. -/
structure Arena where
  nodes : List Function := []
  /-- The node of each key. -/
  index : Std.HashMap FunctionKey NodeId := ∅
  edges : List Edge := []
  /-- The origins of the edges, in the order of the edges. -/
  origins : List (Option String) := []
  edgeSet : Std.HashSet Edge := ∅
  /-- The positions of the edges that leave a node. -/
  edgesFrom : Std.HashMap NodeId (List Nat) := ∅
  /-- The positions of the edges that reach a node. -/
  edgesTo : Std.HashMap NodeId (List Nat) := ∅
  diagnostics : List Diagnostic := []
  diagnosticSet : Std.HashSet Diagnostic := ∅

namespace Arena

/-! ## Requests -/

def modifyNode (a : Arena) (id : NodeId) (change : Function → Function) : Arena :=
  { a with nodes := a.nodes.modify id change }

def addFunction (a : Arena) (f : Function) : Arena × NodeId :=
  match a.index[f.key]? with
  | some id => (a.modifyNode id (·.absorb f), id)
  | none =>
    ({ a with index := a.index.insert f.key a.nodes.length, nodes := a.nodes ++ [f] },
      a.nodes.length)

def ensureNode (a : Arena) (key : FunctionKey) : Arena × NodeId :=
  match a.index[key]? with
  | some id => (a, id)
  | none => a.addFunction (.declared key)

def ensureStub (a : Arena) (key : FunctionKey) : Arena × NodeId × Bool :=
  match a.index[key]? with
  | some id => (a, id, false)
  | none =>
    let (a, id) := a.addFunction (.stubOf key)
    (a, id, true)

def linkOverride (a : Arena) (overrider base : FunctionKey) : Arena :=
  let (a, above) := a.ensureNode overrider
  let (a, below) := a.ensureNode base
  if above = below then a
  else
    (a.modifyNode above fun f => { f with overrides := f.overrides.insert base }).modifyNode below
      fun f => { f with overriddenBy := f.overriddenBy.insert overrider }

/-- Notes one more position for a node. -/
def note (table : Std.HashMap NodeId (List Nat)) (id : NodeId) (position : Nat) :
    Std.HashMap NodeId (List Nat) :=
  table.alter id fun known => some (known.getD [] ++ [position])

/-- Adds an edge, and tells whether it is new.  There is no answer if an end is no node. -/
def addEdge? (a : Arena) (e : Edge) (origin : Option String) : Option (Arena × Bool) :=
  if e.caller < a.nodes.length ∧ e.callee < a.nodes.length then
    if e ∈ a.edgeSet then some (a, false)
    else
      some ({ a with
        edges := a.edges ++ [e]
        origins := a.origins ++ [origin]
        edgeSet := a.edgeSet.insert e
        edgesFrom := note a.edgesFrom e.caller a.edges.length
        edgesTo := note a.edgesTo e.callee a.edges.length }, true)
  else none

def addDiagnostic (a : Arena) (d : Diagnostic) : Arena :=
  if d ∈ a.diagnosticSet then a
  else
    { a with
      diagnostics := a.diagnostics ++ [d]
      diagnosticSet := a.diagnosticSet.insert d }

/-- The arena after a request.  A refused edge leaves it as it is. -/
def serve (a : Arena) : Request → Arena
  | .addFunction f => (a.addFunction f).1
  | .ensureNode key => (a.ensureNode key).1
  | .ensureStub key => (a.ensureStub key).1
  | .linkOverride overrider base => a.linkOverride overrider base
  | .addEdge e origin => ((a.addEdge? e origin).map Prod.fst).getD a
  | .addDiagnostic d => a.addDiagnostic d

/-- The arena that has served these requests, the first one first. -/
def after (requests : List Request) : Arena := requests.foldl serve {}

/-! ## Questions -/

/-- The edges at some positions. -/
def edgesAt (a : Arena) (positions : List Nat) : List Edge :=
  positions.filterMap fun i => a.edges[i]?

def keyOf (a : Arena) (id : NodeId) : FunctionKey := ((a.nodes[id]?).map (·.key)).getD ""

def edgesBetween (a : Arena) (caller callee : FunctionKey) : List Edge :=
  match a.index[caller]?, a.index[callee]? with
  | some source, some target =>
    (a.edgesAt (a.edgesFrom.getD source [])).filter (·.callee = target)
  | _, _ => []

def hasCall (a : Arena) (caller callee : FunctionKey) : Bool :=
  match a.index[caller]?, a.index[callee]? with
  | some source, some target =>
    (a.edgesAt (a.edgesFrom.getD source [])).any (·.callee = target)
  | _, _ => false

def callees (a : Arena) (key : FunctionKey) : SortedSet FunctionKey :=
  match a.index[key]? with
  | some id => .ofList ((a.edgesAt (a.edgesFrom.getD id [])).map fun e => a.keyOf e.callee)
  | none => .empty

def callers (a : Arena) (key : FunctionKey) : SortedSet FunctionKey :=
  match a.index[key]? with
  | some id => .ofList ((a.edgesAt (a.edgesTo.getD id [])).map fun e => a.keyOf e.caller)
  | none => .empty

/-! ## Traversals -/

/-- The nodes next to a node, along the calls or against them. -/
def neighbours (a : Arena) (forward : Bool) (id : NodeId) : List NodeId :=
  if forward then (a.edgesAt (a.edgesFrom.getD id [])).map (·.callee)
  else (a.edgesAt (a.edgesTo.getD id [])).map (·.caller)

/-- The nodes at the ends of edges. -/
def ends (a : Arena) : List NodeId := a.edges.flatMap fun e => [e.caller, e.callee]

theorem mem_of_mem_edgesAt {a : Arena} {positions : List Nat} {e : Edge}
    (h : e ∈ a.edgesAt positions) : e ∈ a.edges := by
  obtain ⟨i, -, hi⟩ := List.mem_filterMap.mp h
  exact List.mem_of_getElem? hi

theorem neighbours_subset_ends (a : Arena) (forward : Bool) (id : NodeId) :
    a.neighbours forward id ⊆ a.ends := by
  intro node hnode
  cases forward with
  | true =>
      obtain ⟨e, he, rfl⟩ := List.mem_map.mp hnode
      exact List.mem_flatMap.mpr ⟨e, mem_of_mem_edgesAt he, by simp⟩
  | false =>
      obtain ⟨e, he, rfl⟩ := List.mem_map.mp hnode
      exact List.mem_flatMap.mpr ⟨e, mem_of_mem_edgesAt he, by simp⟩

def bfs (a : Arena) (key : FunctionKey) (depth : Nat) (forward : Bool) :
    SortedMap FunctionKey Nat :=
  match a.index[key]? with
  | none => .empty
  | some start =>
    Traversal.run a.keyOf (a.neighbours forward) start depth a.ends
      (a.neighbours_subset_ends forward) (.start start)

def calleesWithin (a : Arena) (key : FunctionKey) (depth : Nat) : List (FunctionKey × Nat) :=
  (a.bfs key depth true).entries

def callersWithin (a : Arena) (key : FunctionKey) (depth : Nat) : List (FunctionKey × Nat) :=
  (a.bfs key depth false).entries

def reachableFrom (a : Arena) (entry : FunctionKey) : List FunctionKey :=
  (a.bfs entry (wordLimit - 1) true).keys

/-! ## Tables in step -/

/-- The sets and the tables of positions repeat what the lists say. -/
structure Tabulated (a : Arena) : Prop where
  edgeSet : ∀ e, e ∈ a.edgeSet ↔ e ∈ a.edges
  /-- For each node the positions of all edges that leave it, the earlier ones first. -/
  edgesFrom : ∀ id, a.edgesFrom.getD id [] = a.edges.findIdxs (·.caller = id)
  /-- For each node the positions of all edges that reach it, the earlier ones first. -/
  edgesTo : ∀ id, a.edgesTo.getD id [] = a.edges.findIdxs (·.callee = id)
  diagnosticSet : ∀ d, d ∈ a.diagnosticSet ↔ d ∈ a.diagnostics

/-- The tables are in step, and nothing stands in them twice. -/
structure InStep (a : Arena) : Prop extends Tabulated a where
  /-- The index has the keys of the nodes, and no other ones. -/
  index : ∀ key id, a.index[key]? = some id ↔ ∃ f : Function, a.nodes[id]? = some f ∧ f.key = key
  distinct : a.edges.Nodup
  closed : ∀ e ∈ a.edges, e.caller < a.nodes.length ∧ e.callee < a.nodes.length
  origins : a.origins.length = a.edges.length
  noted : a.diagnostics.Nodup

/-- The arena holds a graph. -/
structure Represents (a : Arena) (g : Graph) : Prop extends Tabulated a where
  nodes : a.nodes = g.nodes
  index : ∀ key, a.index[key]? = g.nodeId? key
  edges : a.edges = g.edges.map (·.edge)
  origins : a.origins = g.edges.map (·.origin)
  diagnostics : a.diagnostics = g.diagnostics

/-- The arena answers questions by key as a graph does. -/
structure AnswersAs (a : Arena) (g : Graph) : Prop where
  edgesBetween : ∀ caller callee, a.edgesBetween caller callee = g.edgesBetween caller callee
  hasCall : ∀ caller callee, a.hasCall caller callee = g.hasCall caller callee
  callees : ∀ key, a.callees key = g.callees key
  callers : ∀ key, a.callers key = g.callers key

variable {a : Arena} {g : Graph}

theorem represents_empty : Represents {} Graph.empty where
  edgeSet := by simp
  edgesFrom := by simp
  edgesTo := by simp
  diagnosticSet := by simp
  nodes := rfl
  index := by simp [Graph.empty, Graph.nodeId?]
  edges := rfl
  origins := rfl
  diagnostics := rfl

/-! ## Functions and links -/

theorem Represents.modifyNode (h : a.Represents g) (id : NodeId) {change : Function → Function}
    (hkey : ∀ f, (change f).key = f.key) :
    (a.modifyNode id change).Represents (g.modifyNode id change) where
  __ := h
  nodes := by rw [Arena.modifyNode, h.nodes, Graph.modifyNode]
  index key := by
    rw [Graph.nodeId?_eq, Graph.keys_modifyNode hkey, ← Graph.nodeId?_eq]
    exact h.index key

/-- A function with a new key gets the next node. -/
theorem Represents.append (h : a.Represents g) {f : Function} (hnew : g.nodeId? f.key = none) :
    Represents { a with index := a.index.insert f.key a.nodes.length, nodes := a.nodes ++ [f] }
      { g with nodes := g.nodes ++ [f] } where
  __ := h
  nodes := by rw [h.nodes]
  index key := by
    rw [Std.HashMap.getElem?_insert, h.index, h.nodes]
    by_cases hkey : f.key = key
    · subst hkey
      rw [Graph.nodeId?_append (Graph.nodeId?_eq_none_iff.mp hnew)]
      simp [Graph.size]
    · simp [Graph.nodeId?, List.findIdx?_append, hkey]

/-- An answer of an arena and one of a graph, each with the state after it. -/
def Agree {α : Type} (x : Arena × α) (y : Graph × α) : Prop := x.1.Represents y.1 ∧ x.2 = y.2

theorem Represents.addFunction (h : a.Represents g) (f : Function) :
    Agree (a.addFunction f) (g.addFunction f) := by
  rw [Arena.addFunction, Graph.addFunction, h.index]
  cases hid : g.nodeId? f.key with
  | some id => exact ⟨h.modifyNode id fun known => known.key_absorb f, rfl⟩
  | none => exact ⟨h.append hid, by rw [h.nodes, Graph.size]⟩

theorem Represents.ensureNode (h : a.Represents g) (key : FunctionKey) :
    Agree (a.ensureNode key) (g.ensureNode key) := by
  rw [Arena.ensureNode, Graph.ensureNode, h.index]
  cases g.nodeId? key with
  | some id => exact ⟨h, rfl⟩
  | none => exact h.addFunction (.declared key)

theorem Represents.ensureStub (h : a.Represents g) (key : FunctionKey) :
    Agree (a.ensureStub key) (g.ensureStub key) := by
  rw [Arena.ensureStub, Graph.ensureStub, h.index]
  cases g.nodeId? key with
  | some id => exact ⟨h, rfl⟩
  | none =>
      obtain ⟨hstub, hid⟩ := h.addFunction (.stubOf key)
      exact ⟨hstub, Prod.ext hid rfl⟩

theorem Represents.linkOverride (h : a.Represents g) (overrider base : FunctionKey) :
    (a.linkOverride overrider base).Represents (g.linkOverride overrider base) := by
  obtain ⟨hover, habove⟩ := h.ensureNode overrider
  obtain ⟨hbase, hbelow⟩ := hover.ensureNode base
  simp only [Arena.linkOverride, Graph.linkOverride, habove, hbelow]
  split
  · exact hbase
  · refine (hbase.modifyNode _ fun f => ?_).modifyNode _ fun f => ?_
    · rfl
    · rfl

/-! ## Edges and diagnostics -/

/-- A table of positions stays one when an edge is added at the end. -/
theorem getD_note {table : Std.HashMap NodeId (List Nat)} {edges : List Edge}
    (node : Edge → NodeId) (h : ∀ id, table.getD id [] = edges.findIdxs (node · = id)) (e : Edge)
    (id : NodeId) :
    (note table (node e) edges.length).getD id [] = (edges ++ [e]).findIdxs (node · = id) := by
  rw [note, Std.HashMap.getD_alter, List.findIdxs_append, ← h id]
  by_cases hid : node e = id
  · subst hid
    simp [Std.HashMap.getD_eq_getD_getElem?]
  · simp [hid]

/-- A set of what is in a list stays one when something is added to both. -/
theorem mem_insert_iff {α : Type} [BEq α] [Hashable α] [LawfulBEq α] {set : Std.HashSet α}
    {l : List α} (h : ∀ x, x ∈ set ↔ x ∈ l) (y x : α) : x ∈ set.insert y ↔ x ∈ l ++ [y] := by
  rw [Std.HashSet.mem_insert, h, List.mem_append, List.mem_singleton, beq_iff_eq, or_comm,
    eq_comm]

theorem Represents.addEdge? (h : a.Represents g) (e : Edge) (origin : Option String) :
    Option.Rel Agree (a.addEdge? e origin) (g.addEdge? e origin) := by
  have hends : g.admits e = true ↔ e.caller < a.nodes.length ∧ e.callee < a.nodes.length := by
    rw [Graph.admits, Bool.and_eq_true, decide_eq_true_eq, decide_eq_true_eq, h.nodes, Graph.size]
  have hknown : g.containsEdge e = true ↔ e ∈ a.edgeSet := by
    simp [Graph.containsEdge, h.edgeSet, h.edges]
  rw [Arena.addEdge?, Graph.addEdge?, Graph.insertEdge]
  by_cases hadmits : g.admits e = true
  · rw [if_pos (hends.mp hadmits), if_pos hadmits]
    by_cases hold : g.containsEdge e = true
    · rw [if_pos (hknown.mp hold), if_neg (by simp [hold])]
      exact .some ⟨h, rfl⟩
    · rw [if_neg (mt hknown.mpr hold), if_pos (by simp [hadmits, hold])]
      refine .some ⟨?_, rfl⟩
      exact {
        __ := h
        edges := by simp [h.edges]
        origins := by simp [h.origins]
        edgeSet := mem_insert_iff h.edgeSet e
        edgesFrom := getD_note Edge.caller h.edgesFrom e
        edgesTo := getD_note Edge.callee h.edgesTo e }
  · rw [if_neg (mt hends.mpr hadmits), if_neg hadmits]
    exact .none

theorem Represents.addDiagnostic (h : a.Represents g) (d : Diagnostic) :
    (a.addDiagnostic d).Represents (g.addDiagnostic d) := by
  have hknown : d ∈ g.diagnostics ↔ d ∈ a.diagnosticSet := by rw [h.diagnosticSet, h.diagnostics]
  rw [Arena.addDiagnostic, Graph.addDiagnostic]
  by_cases hold : d ∈ g.diagnostics
  · rwa [if_pos (hknown.mp hold), if_pos hold]
  · rw [if_neg (mt hknown.mpr hold), if_neg hold]
    exact {
      __ := h
      diagnostics := by rw [h.diagnostics]
      diagnosticSet := mem_insert_iff h.diagnosticSet d }

/-! ## Step and run -/

theorem represents_serve (h : a.Represents g) (r : Request) :
    (a.serve r).Represents (g.serve r) := by
  cases r with
  | addFunction f => exact (h.addFunction f).1
  | ensureNode key => exact (h.ensureNode key).1
  | ensureStub key => exact (h.ensureStub key).1
  | linkOverride overrider base => exact h.linkOverride overrider base
  | addEdge e origin =>
      have hedge := h.addEdge? e origin
      rw [serve, Graph.serve]
      generalize a.addEdge? e origin = x at hedge ⊢
      generalize g.addEdge? e origin = y at hedge ⊢
      cases hedge with
      | none => exact h
      | some hagree => exact hagree.1
  | addDiagnostic d => exact h.addDiagnostic d

theorem represents_after (requests : List Request) :
    (after requests).Represents (Graph.after requests) :=
  List.foldl_rel represents_empty fun r _ _ _ h => represents_serve h r

theorem Represents.inStep (h : a.Represents g) (hg : g.Regular) : a.InStep where
  __ := h.toTabulated
  index key id := by
    rw [h.index, h.nodes]
    constructor
    · exact Graph.exists_getElem?_of_nodeId?
    · rintro ⟨f, hf, rfl⟩
      have hkey : g.keyOf id = f.key := by simp [Graph.keyOf, Graph.node?, hf]
      rw [← hkey]
      exact Graph.nodeId?_keyOf hg.nodup (List.getElem?_eq_some_iff.mp hf).1
  distinct := by
    rw [h.edges]
    exact hg.distinct
  closed e he := by
    rw [h.edges] at he
    obtain ⟨s, hs, rfl⟩ := List.mem_map.mp he
    rw [h.nodes]
    exact hg.closed s hs
  origins := by rw [h.origins, h.edges, List.length_map, List.length_map]
  noted := by
    rw [h.diagnostics]
    exact hg.noted

/-- The edges at the positions where a test holds are the edges that pass it. -/
theorem edgesAt_findIdxs (a : Arena) (p : Edge → Bool) :
    a.edgesAt (a.edges.findIdxs p) = a.edges.filter p := by
  have hread : (a.edges.findIdxs p).map (fun i => a.edges[i]?) = (a.edges.filter p).map some := by
    refine List.ext_getElem ?_ fun i hi hi' => ?_
    · simp [List.countP_eq_length_filter]
    · rw [List.getElem_map, List.getElem_map,
        List.getElem_filter_eq_getElem_getElem_findIdxs (by simpa using hi')]
      exact List.getElem?_eq_getElem _
  calc a.edgesAt (a.edges.findIdxs p)
      = ((a.edges.findIdxs p).map fun i => a.edges[i]?).filterMap id := by
        rw [List.filterMap_map]
        rfl
    _ = a.edges.filter p := by
        rw [hread]
        simp

theorem hasCall_eq (a : Arena) (caller callee : FunctionKey) :
    a.hasCall caller callee = !(a.edgesBetween caller callee).isEmpty := by
  rw [hasCall, edgesBetween]
  split
  · rw [Bool.eq_iff_iff]
    simp
  · rfl

/-- The positions noted for a node lead to the edges that leave it. -/
theorem Represents.edgesAt_edgesFrom (h : a.Represents g) (id : NodeId) :
    a.edgesAt (a.edgesFrom.getD id []) = g.edgesFrom id := by
  rw [h.edgesFrom, edgesAt_findIdxs, h.edges, Graph.edgesFrom]

/-- The positions noted for a node lead to the edges that reach it. -/
theorem Represents.edgesAt_edgesTo (h : a.Represents g) (id : NodeId) :
    a.edgesAt (a.edgesTo.getD id []) = g.edgesTo id := by
  rw [h.edgesTo, edgesAt_findIdxs, h.edges, Graph.edgesTo]

theorem Represents.keyOf (h : a.Represents g) (id : NodeId) : a.keyOf id = g.keyOf id := by
  rw [Arena.keyOf, h.nodes, Graph.keyOf, Graph.node?]

theorem Represents.answersAs (h : a.Represents g) : a.AnswersAs g := by
  have hbetween : ∀ caller callee,
      a.edgesBetween caller callee = g.edgesBetween caller callee := by
    intro caller callee
    rw [edgesBetween, Graph.edgesBetween, h.index, h.index]
    cases g.nodeId? caller with
    | none => rfl
    | some source =>
        cases g.nodeId? callee with
        | none => rfl
        | some target => simp only [h.edgesAt_edgesFrom]
  refine ⟨hbetween, fun caller callee => ?_, fun key => ?_, fun key => ?_⟩
  · rw [hasCall_eq, hbetween, Graph.hasCall]
  · rw [callees, Graph.callees, h.index]
    cases g.nodeId? key with
    | none => rfl
    | some id => simp only [h.edgesAt_edgesFrom, h.keyOf]
  · rw [callers, Graph.callers, h.index]
    cases g.nodeId? key with
    | none => rfl
    | some id => simp only [h.edgesAt_edgesTo, h.keyOf]

/-- A traversal goes by what it is told of nodes, not by where that is kept. -/
theorem Represents.bfs (h : a.Represents g) (key : FunctionKey) (depth : Nat) (forward : Bool) :
    a.bfs key depth forward = g.bfs key depth forward := by
  have hkey : a.keyOf = g.keyOf := funext h.keyOf
  have hnext : a.neighbours forward = g.neighbours forward := by
    funext id
    cases forward with
    | true => exact congrArg (List.map Edge.callee) (h.edgesAt_edgesFrom id)
    | false => exact congrArg (List.map Edge.caller) (h.edgesAt_edgesTo id)
  have hends : a.ends = g.ends := by rw [ends, h.edges, Graph.ends, List.flatMap_map]
  rw [Arena.bfs, Graph.bfs, h.index]
  cases g.nodeId? key with
  | none => rfl
  | some start => simp only [hkey, hnext, hends]

/-- Whatever an arena and a graph have been asked to take in, the tables of the arena are in step
and hold the graph.  The next request puts in what it asks for and takes nothing back.  And
questions by key, which the arena answers from its tables, have the answers that the list of edges
gives. -/
theorem tables_in_step (requests : List Request) :
    (after requests).InStep ∧ (after requests).Represents (Graph.after requests) ∧
      (∀ r, (Graph.after requests).Extends (Graph.after (requests ++ [r])) ∧
        (Graph.after (requests ++ [r])).Meets r) ∧
      (after requests).AnswersAs (Graph.after requests) ∧
      (Graph.after requests).AnswersByEdges := by
  have hheld := represents_after requests
  have hregular := (Graph.reachable_after requests).regular
  refine ⟨hheld.inStep hregular, hheld, fun r => ?_, hheld.answersAs, hregular.answersByEdges⟩
  rw [Graph.after_concat]
  exact ⟨Graph.extends_serve _ r, Graph.meets_serve hregular.toWellFormed r⟩

end Arena

end CallGraphs
