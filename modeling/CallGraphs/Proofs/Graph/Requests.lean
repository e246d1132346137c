import CallGraphs.Proofs.Graph.Reachable
import Mathlib.Data.List.Induction

/-!
# What requests do to a graph

Whoever builds a graph does it by six requests (`Request`).  A graph that has
served requests is one that operations build, so it is regular
(`reachable_after`).  A request puts in what it asks for (`meets_serve`) and takes
nothing back (`extends_serve`): a function keeps its node and its key, what is
known of it stays known, and edges, their origins and diagnostics keep their
places.

In a well-formed graph an edge has two keys at its ends (`Joins`).  So a question
about keys, which is answered from the edges at one node, has the answer that the
list of all edges gives (`WellFormed.answersByEdges`).
-/

namespace CallGraphs

/-- What a graph may be asked to take in. -/
inductive Request where
  | addFunction (f : Function)
  | ensureNode (key : FunctionKey)
  | ensureStub (key : FunctionKey)
  | linkOverride (overrider base : FunctionKey)
  | addEdge (e : Edge) (origin : Option String)
  | addDiagnostic (d : Diagnostic)

namespace Graph

/-- The graph after a request.  An edge with an end outside the graph is refused, and the graph
stays as it is. -/
def serve (g : Graph) : Request → Graph
  | .addFunction f => (g.addFunction f).1
  | .ensureNode key => (g.ensureNode key).1
  | .ensureStub key => (g.ensureStub key).1
  | .linkOverride overrider base => g.linkOverride overrider base
  | .addEdge e origin => ((g.addEdge? e origin).map Prod.fst).getD g
  | .addDiagnostic d => g.addDiagnostic d

/-- The graph that has served these requests, the first one first. -/
def after (requests : List Request) : Graph := requests.foldl serve empty

theorem after_concat (requests : List Request) (r : Request) :
    after (requests ++ [r]) = (after requests).serve r := by
  simp [after]

variable {g g' g'' : Graph}

theorem serve_addEdge (g : Graph) (e : Edge) (origin : Option String) :
    g.serve (.addEdge e origin) = (g.insertEdge e origin).1 := by
  simp only [serve, addEdge?]
  split
  · rfl
  · next hends => simp [insertEdge, hends]

theorem operation_serve (g : Graph) (r : Request) : g.serve r = g ∨ Operation g (g.serve r) := by
  cases r with
  | addFunction f => exact Or.inr (.addFunction g f)
  | ensureNode key => exact Or.inr (.ensureNode g key)
  | ensureStub key => exact Or.inr (.ensureStub g key)
  | linkOverride overrider base => exact Or.inr (.linkOverride g overrider base)
  | addEdge e origin =>
      rw [serve_addEdge]
      by_cases hends : g.admits e = true
      · exact Or.inr (.insertEdge g e origin hends)
      · exact Or.inl (by simp [insertEdge, hends])
  | addDiagnostic d => exact Or.inr (.addDiagnostic g d)

theorem reachable_after (requests : List Request) : (after requests).Reachable := by
  induction requests using List.reverseRecOn with
  | nil => exact .refl
  | append_singleton requests r ih =>
      rw [after_concat]
      rcases operation_serve (after requests) r with hsame | hstep
      · rwa [hsame]
      · exact ih.tail hstep

end Graph

/-! ## Nothing is taken back -/

/-- The second function is the first one, and all that is known of the first one is known of it:
flags have not turned off, a stub has not turned up, and no override link is lost. -/
structure Function.Grows (f f' : Function) : Prop where
  key : f'.key = f.key
  has : ∀ t, f.Has t → f'.Has t

theorem Function.Grows.refl (f : Function) : f.Grows f := ⟨rfl, fun _ h => h⟩

theorem Function.Grows.trans {f f' f'' : Function} (h : f.Grows f') (h' : f'.Grows f'') :
    f.Grows f'' :=
  ⟨h'.key.trans h.key, fun t ht => h'.has t (h.has t ht)⟩

theorem Function.grows_absorb (f other : Function) : f.Grows (f.absorb other) :=
  ⟨f.key_absorb other, fun t ht => (f.has_absorb other t).mpr (Or.inl ht)⟩

theorem Function.grows_insert_overrides (f : Function) (base : FunctionKey) :
    f.Grows { f with overrides := f.overrides.insert base } :=
  ⟨rfl, fun t ht => (Graph.has_insert_overrides f base t).mpr (Or.inl ht)⟩

theorem Function.grows_insert_overriddenBy (f : Function) (overrider : FunctionKey) :
    f.Grows { f with overriddenBy := f.overriddenBy.insert overrider } :=
  ⟨rfl, fun t ht => (Graph.has_insert_overriddenBy f overrider t).mpr (Or.inl ht)⟩

namespace Graph

/-- All that the first graph holds stands at the same place in the second one. -/
structure Extends (g g' : Graph) : Prop where
  nodes : ∀ (id : NodeId) (f : Function), g.nodes[id]? = some f →
    ∃ f', g'.nodes[id]? = some f' ∧ f.Grows f'
  edges : g.edges <+: g'.edges
  diagnostics : g.diagnostics <+: g'.diagnostics

variable {g g' g'' : Graph}

namespace Extends

theorem refl (g : Graph) : Extends g g where
  nodes _ f hf := ⟨f, hf, .refl f⟩
  edges := List.prefix_refl _
  diagnostics := List.prefix_refl _

theorem trans (h : Extends g g') (h' : Extends g' g'') : Extends g g'' where
  nodes id f hf := by
    obtain ⟨f', hf', hgrows⟩ := h.nodes id f hf
    obtain ⟨f'', hf'', hgrows'⟩ := h'.nodes id f' hf'
    exact ⟨f'', hf'', hgrows.trans hgrows'⟩
  edges := h.edges.trans h'.edges
  diagnostics := h.diagnostics.trans h'.diagnostics

end Extends

theorem extends_modifyNode (g : Graph) (id : NodeId) {change : Function → Function}
    (hgrows : ∀ f : Function, f.Grows (change f)) : Extends g (g.modifyNode id change) where
  nodes i f hf := by
    refine ⟨if id = i then change f else f, by simp [modifyNode, List.getElem?_modify, hf], ?_⟩
    split
    · exact hgrows f
    · exact .refl f
  edges := List.prefix_refl _
  diagnostics := List.prefix_refl _

theorem extends_addFunction (g : Graph) (f : Function) : Extends g (g.addFunction f).1 := by
  rw [addFunction]
  split
  · exact extends_modifyNode g _ fun known => known.grows_absorb f
  · refine ⟨fun id known hknown => ⟨known, ?_, .refl known⟩, List.prefix_refl _,
      List.prefix_refl _⟩
    rw [List.getElem?_append_left (List.getElem?_eq_some_iff.mp hknown).1]
    exact hknown

theorem extends_ensureNode (g : Graph) (key : FunctionKey) : Extends g (g.ensureNode key).1 := by
  rw [ensureNode]
  split
  · exact .refl g
  · exact extends_addFunction g _

theorem extends_ensureStub (g : Graph) (key : FunctionKey) : Extends g (g.ensureStub key).1 := by
  rw [ensureStub]
  split
  · exact .refl g
  · exact extends_addFunction g _

theorem extends_linkOverride (g : Graph) (overrider base : FunctionKey) :
    Extends g (g.linkOverride overrider base) := by
  have hends := (extends_ensureNode g overrider).trans (extends_ensureNode _ base)
  simp only [linkOverride]
  split
  · exact hends
  · exact (hends.trans (extends_modifyNode _ _ (·.grows_insert_overrides base))).trans
      (extends_modifyNode _ _ (·.grows_insert_overriddenBy overrider))

theorem extends_insertEdge (g : Graph) (e : Edge) (origin : Option String) :
    Extends g (g.insertEdge e origin).1 := by
  rw [insertEdge]
  split
  · exact { Extends.refl g with edges := List.prefix_append _ _ }
  · exact .refl g

theorem extends_addDiagnostic (g : Graph) (d : Diagnostic) : Extends g (g.addDiagnostic d) := by
  rw [addDiagnostic]
  split
  · exact .refl g
  · exact { Extends.refl g with diagnostics := List.prefix_append _ _ }

theorem extends_serve (g : Graph) (r : Request) : Extends g (g.serve r) := by
  cases r with
  | addFunction f => exact extends_addFunction g f
  | ensureNode key => exact extends_ensureNode g key
  | ensureStub key => exact extends_ensureStub g key
  | linkOverride overrider base => exact extends_linkOverride g overrider base
  | addEdge e origin =>
      rw [serve_addEdge]
      exact extends_insertEdge g e origin
  | addDiagnostic d => exact extends_addDiagnostic g d

/-! ## What was asked for -/

/-- What a request asks for is there.  An edge is asked for only between nodes, and no link from a
function to itself. -/
def Meets (g : Graph) : Request → Prop
  | .addFunction f => f.key ∈ g.keys ∧ ∀ t, f.Has t → (f.key, t) ∈ g.traits
  | .ensureNode key => key ∈ g.keys
  | .ensureStub key => key ∈ g.keys
  | .linkOverride overrider base => overrider ∈ g.keys ∧ base ∈ g.keys ∧
      (overrider ≠ base →
        (overrider, .overrides base) ∈ g.traits ∧ (base, .overriddenBy overrider) ∈ g.traits)
  | .addEdge e _ => g.admits e = true → g.containsEdge e = true
  | .addDiagnostic d => d ∈ g.diagnostics

theorem meets_addFunction (hg : g.WellFormed) (f : Function) :
    (g.addFunction f).1.Meets (.addFunction f) := by
  have hkey : .node f.key ∈ (g.addFunction f).1.features := by
    rw [(adds_addFunction hg f).features]
    exact Or.inr (Or.inl rfl)
  refine ⟨hkey, fun t ht => ?_⟩
  rw [traits_addFunction]
  exact Or.inr ⟨rfl, ht⟩

theorem meets_linkOverride (hg : g.WellFormed) (overrider base : FunctionKey) :
    (g.linkOverride overrider base).Meets (.linkOverride overrider base) := by
  have hkeys : ∀ key, key = overrider ∨ key = base →
      .node key ∈ (g.linkOverride overrider base).features := by
    intro key hkey
    rw [(adds_linkOverride hg overrider base).features]
    exact Or.inr (by simpa using hkey)
  refine ⟨hkeys _ (Or.inl rfl), hkeys _ (Or.inr rfl), fun hne => ?_⟩
  rw [(evolves_linkOverride hg overrider base).traits]
  exact ⟨Or.inr (Or.inl ⟨hne, Or.inl rfl⟩), Or.inr (Or.inl ⟨hne, Or.inr rfl⟩)⟩

theorem meets_insertEdge (g : Graph) (e : Edge) (origin : Option String) :
    (g.insertEdge e origin).1.Meets (.addEdge e origin) := by
  intro hends
  rw [insertEdge] at hends ⊢
  split
  · simp [containsEdge]
  · next hold =>
    rw [if_neg hold] at hends
    simpa [hends] using hold

theorem meets_serve (hg : g.WellFormed) (r : Request) : (g.serve r).Meets r := by
  cases r with
  | addFunction f => exact meets_addFunction hg f
  | ensureNode key =>
      exact List.mem_of_getElem? (getElem?_of_nodeId? (located_ensureNode hg key).nodeId?)
  | ensureStub key =>
      simp only [serve, ensureStub]
      cases hid : g.nodeId? key with
      | some id => exact List.mem_of_getElem? (getElem?_of_nodeId? hid)
      | none => exact (meets_addFunction hg (.stubOf key)).1
  | linkOverride overrider base => exact meets_linkOverride hg overrider base
  | addEdge e origin =>
      rw [serve_addEdge]
      exact meets_insertEdge g e origin
  | addDiagnostic d =>
      simp only [serve, addDiagnostic]
      split
      · next hold => exact hold
      · exact List.mem_append_right _ (List.mem_singleton_self d)

/-! ## Questions by key -/

/-- The edge leads from one function to another. -/
def Joins (g : Graph) (caller callee : FunctionKey) (e : Edge) : Prop :=
  g.keyOf e.caller = caller ∧ g.keyOf e.callee = callee

instance (g : Graph) (caller callee : FunctionKey) (e : Edge) :
    Decidable (g.Joins caller callee e) := inferInstanceAs (Decidable (_ ∧ _))

/-- What a graph answers about two functions is what its list of edges says. -/
structure AnswersByEdges (g : Graph) : Prop where
  edgesBetween : ∀ a b, g.edgesBetween a b = (g.edges.map (·.edge)).filter (g.Joins a b)
  hasCall : ∀ a b, g.hasCall a b = true ↔ ∃ e ∈ g.edges, g.Joins a b e.edge
  callees : ∀ a b, b ∈ g.callees a ↔ ∃ e ∈ g.edges, g.Joins a b e.edge
  callers : ∀ a b, a ∈ g.callers b ↔ ∃ e ∈ g.edges, g.Joins a b e.edge

theorem keyOf_eq_iff (hn : g.keys.Nodup) {id : NodeId} (hid : id < g.size) {key : FunctionKey} :
    g.keyOf id = key ↔ g.nodeId? key = some id := by
  constructor
  · rintro rfl
    exact nodeId?_keyOf hn hid
  · exact keyOf_of_nodeId?

theorem mem_callees {a b : FunctionKey} : b ∈ g.callees a ↔
    ∃ e ∈ g.edges, g.nodeId? a = some e.edge.caller ∧ g.keyOf e.edge.callee = b := by
  rw [callees]
  cases g.nodeId? a with
  | none => simp
  | some id => simp [SortedSet.mem_ofList, edgesFrom, eq_comm, and_assoc]

theorem mem_callers {a b : FunctionKey} : a ∈ g.callers b ↔
    ∃ e ∈ g.edges, g.nodeId? b = some e.edge.callee ∧ g.keyOf e.edge.caller = a := by
  rw [callers]
  cases g.nodeId? b with
  | none => simp
  | some id => simp [SortedSet.mem_ofList, edgesTo, eq_comm, and_assoc]

theorem edgesBetween_eq (a b : FunctionKey) : g.edgesBetween a b =
    (g.edges.map (·.edge)).filter
      fun e => g.nodeId? a = some e.caller ∧ g.nodeId? b = some e.callee := by
  rw [edgesBetween]
  cases ha : g.nodeId? a with
  | none => simp
  | some source =>
      cases hb : g.nodeId? b with
      | none => simp
      | some target =>
          simp only [edgesFrom, List.filter_filter]
          refine List.filter_congr fun e _ => ?_
          simp [eq_comm, Bool.and_comm]

/-- The ends of an edge are nodes, and there is one node for a key. -/
theorem WellFormed.answersByEdges (hg : g.WellFormed) : g.AnswersByEdges := by
  have hcaller : ∀ e ∈ g.edges, ∀ a, g.keyOf e.edge.caller = a ↔ g.nodeId? a = some e.edge.caller :=
    fun e he _ => keyOf_eq_iff hg.nodup (hg.closed e he).1
  have hcallee : ∀ e ∈ g.edges, ∀ b, g.keyOf e.edge.callee = b ↔ g.nodeId? b = some e.edge.callee :=
    fun e he _ => keyOf_eq_iff hg.nodup (hg.closed e he).2
  have hbetween : ∀ a b, g.edgesBetween a b = (g.edges.map (·.edge)).filter (g.Joins a b) := by
    intro a b
    rw [edgesBetween_eq]
    refine List.filter_congr fun e he => ?_
    obtain ⟨s, hs, rfl⟩ := List.mem_map.mp he
    simp [Joins, hcaller s hs, hcallee s hs]
  refine ⟨hbetween, fun a b => ?_, fun a b => ?_, fun a b => ?_⟩
  · simp [hasCall, hbetween]
  · rw [mem_callees]
    refine exists_congr fun e => and_congr_right fun he => ?_
    rw [Joins, hcaller e he]
  · rw [mem_callers]
    refine exists_congr fun e => and_congr_right fun he => ?_
    rw [Joins, hcallee e he, and_comm]

end Graph

end CallGraphs
