import CallGraphs.Analysis.Scope
import CallGraphs.Proofs.Graph.Traits

/-!
# Graphs that resemble each other

Two graphs resemble each other if they have the same functions and the same edges
in the same order.  Where the names of units count, functions and edges are marked
with the same units as well; where they do not, the marks are left out of account.
Diagnostics are never counted.

Every operation takes graphs that resemble each other to such graphs, and finds
the same nodes in both.
-/

namespace CallGraphs

/-- The mark of a unit, if the names of units count. -/
def shownOrigin (named : Bool) (origin : Option String) : Option String :=
  if named then origin else none

theorem shownOrigin_orElse (named : Bool) (origin other : Option String) :
    shownOrigin named (origin <|> other) =
      (shownOrigin named origin <|> shownOrigin named other) := by
  cases named <;> rfl

/-- A function with the mark of its unit, if the names of units count. -/
def Function.shown (named : Bool) (f : Function) : Function :=
  { f with origin := shownOrigin named f.origin }

/-- An edge with the mark of its unit, if the names of units count. -/
def SourcedEdge.shown (named : Bool) (e : SourcedEdge) : SourcedEdge :=
  { e with origin := shownOrigin named e.origin }

namespace Function

variable {named : Bool} {f f' other other' : Function}

theorem shown_eq_iff : f.shown named = f'.shown named ↔
    { f with origin := none } = { f' with origin := none } ∧
      shownOrigin named f.origin = shownOrigin named f'.origin := by
  simp only [shown, mk.injEq]
  tauto

theorem key_eq_of_shown (h : f.shown named = f'.shown named) : f.key = f'.key := by
  show (f.shown named).key = (f'.shown named).key
  rw [h]

theorem hasBody_eq_of_shown (h : f.shown named = f'.shown named) : f.hasBody = f'.hasBody := by
  show (f.shown named).hasBody = (f'.shown named).hasBody
  rw [h]

theorem shown_absorb (h : f.shown named = f'.shown named)
    (hother : other.shown named = other'.shown named) :
    (f.absorb other).shown named = (f'.absorb other').shown named := by
  obtain ⟨hsame, horigin⟩ := shown_eq_iff.mp h
  obtain ⟨hsame', horigin'⟩ := shown_eq_iff.mp hother
  cases f
  cases f'
  cases other
  cases other'
  simp only [mk.injEq, and_true] at hsame hsame' horigin horigin'
  obtain ⟨rfl, rfl, rfl, rfl, rfl, rfl, rfl, rfl, rfl⟩ := hsame
  obtain ⟨rfl, rfl, rfl, rfl, rfl, rfl, rfl, rfl, rfl⟩ := hsame'
  simp only [shown, absorb, mk.injEq, true_and]
  split
  · rw [shownOrigin_orElse, shownOrigin_orElse, horigin, horigin']
  · exact horigin

end Function

namespace Graph

/-- The same functions and the same edges in the same order. -/
structure Resembles (named : Bool) (g g' : Graph) : Prop where
  nodes : g.nodes.map (·.shown named) = g'.nodes.map (·.shown named)
  edges : g.edges.map (·.shown named) = g'.edges.map (·.shown named)

namespace Resembles

variable {named : Bool} {g g' g'' : Graph}

theorem refl (named : Bool) (g : Graph) : Resembles named g g := ⟨rfl, rfl⟩

theorem symm (h : Resembles named g g') : Resembles named g' g :=
  ⟨h.nodes.symm, h.edges.symm⟩

theorem trans (h : Resembles named g g') (h' : Resembles named g' g'') : Resembles named g g'' :=
  ⟨h.nodes.trans h'.nodes, h.edges.trans h'.edges⟩

/-- Where the names of units count, nothing but diagnostics can differ. -/
theorem eq_of_named (h : Resembles true g g') : g.nodes = g'.nodes ∧ g.edges = g'.edges := by
  have hnodes : ∀ l : List Function, l.map (·.shown true) = l := List.map_id
  have hedges : ∀ l : List SourcedEdge, l.map (·.shown true) = l := List.map_id
  have h₁ := h.nodes
  have h₂ := h.edges
  rw [hnodes, hnodes] at h₁
  rw [hedges, hedges] at h₂
  exact ⟨h₁, h₂⟩

/-! ## What is read off -/

theorem keys_eq (h : Resembles named g g') : g.keys = g'.keys := by
  have hkeys := congrArg (List.map Function.key) h.nodes
  rwa [List.map_map, List.map_map] at hkeys

theorem size_eq (h : Resembles named g g') : g.size = g'.size := by
  rw [← length_keys, ← length_keys, h.keys_eq]

theorem nodeId?_eq (h : Resembles named g g') (key : FunctionKey) :
    g.nodeId? key = g'.nodeId? key := by
  rw [Graph.nodeId?_eq, Graph.nodeId?_eq, h.keys_eq]

theorem edge_eq (h : Resembles named g g') : g.edges.map (·.edge) = g'.edges.map (·.edge) := by
  have hedges := congrArg (List.map SourcedEdge.edge) h.edges
  rwa [List.map_map, List.map_map] at hedges

theorem wellFormed (h : Resembles named g g') (hg : g.WellFormed) : g'.WellFormed := by
  refine ⟨h.keys_eq ▸ hg.nodup, fun e he => ?_⟩
  have hmem : e.edge ∈ g.edges.map (·.edge) := h.edge_eq ▸ List.mem_map_of_mem he
  obtain ⟨e', he', heq⟩ := List.mem_map.mp hmem
  rw [← heq, ← h.size_eq]
  exact hg.closed e' he'

theorem exists_shown_eq (h : Resembles named g g') {f : Function} (hf : f ∈ g.nodes) :
    ∃ f' ∈ g'.nodes, f.shown named = f'.shown named := by
  have hmem : f.shown named ∈ g'.nodes.map (·.shown named) :=
    h.nodes ▸ List.mem_map_of_mem hf
  obtain ⟨f', hf', heq⟩ := List.mem_map.mp hmem
  exact ⟨f', hf', heq.symm⟩

/-- The body of a function is there in both. -/
theorem any_find?_eq (h : Resembles named g g') (key : FunctionKey) :
    (g.find? key).any (·.hasBody) = (g'.find? key).any (·.hasBody) := by
  have hfind : ∀ g : Graph, (g.find? key).any (·.hasBody) =
      ((g.nodes.map (·.shown named)).find? (·.key == key)).any (·.hasBody) := by
    intro g
    rw [List.find?_map, Option.any_map]
    rfl
  rw [hfind, hfind, h.nodes]

theorem features_subset (h : Resembles named g g') : g.features ⊆ g'.features := by
  intro x hx
  cases x with
  | node key =>
      have hkey : key ∈ g.keys := hx
      rw [h.keys_eq] at hkey
      exact hkey
  | body key =>
      obtain ⟨f, hf, hkey, hbody⟩ := hx
      obtain ⟨f', hf', hsame⟩ := h.exists_shown_eq hf
      exact ⟨f', hf', (Function.key_eq_of_shown hsame).symm.trans hkey,
        (Function.hasBody_eq_of_shown hsame).symm.trans hbody⟩
  | call a b k c =>
      obtain ⟨e, he, ha, hb, hk, hc⟩ := hx
      have hmem : e.edge ∈ g'.edges.map (·.edge) := h.edge_eq ▸ List.mem_map_of_mem he
      obtain ⟨e', he', heq⟩ := List.mem_map.mp hmem
      refine ⟨e', he', ?_⟩
      rw [heq, keyOf_eq, keyOf_eq, ← h.keys_eq, ← keyOf_eq, ← keyOf_eq]
      exact ⟨ha, hb, hk, hc⟩

theorem features_eq (h : Resembles named g g') : g.features = g'.features :=
  Set.Subset.antisymm h.features_subset h.symm.features_subset

/-! ## Operations -/

theorem modifyNode (h : Resembles named g g') (id : NodeId) {change change' : Function → Function}
    (hchange : ∀ f f', f.shown named = f'.shown named →
      (change f).shown named = (change' f').shown named) :
    Resembles named (g.modifyNode id change) (g'.modifyNode id change') where
  nodes := by
    refine List.ext_getElem? fun i => ?_
    have hi := congrArg (·[i]?) h.nodes
    simp only [List.getElem?_map] at hi
    simp only [Graph.modifyNode, List.getElem?_map, List.getElem?_modify]
    cases hf : g.nodes[i]? with
    | none =>
        rw [hf] at hi
        rw [Option.map_eq_none_iff.mp hi.symm]
        rfl
    | some f =>
        rw [hf] at hi
        obtain ⟨f', hf', heq⟩ := Option.map_eq_some_iff.mp hi.symm
        rw [hf']
        by_cases hid : id = i
        · simp [hid, hchange f f' heq.symm]
        · simp [hid, heq]
  edges := h.edges

theorem append (h : Resembles named g g') {f f' : Function}
    (hf : f.shown named = f'.shown named) :
    Resembles named { g with nodes := g.nodes ++ [f] } { g' with nodes := g'.nodes ++ [f'] } where
  nodes := by
    rw [List.map_append, List.map_append, h.nodes, List.map_singleton, List.map_singleton, hf]
  edges := h.edges

theorem addFunction (h : Resembles named g g') {f f' : Function}
    (hf : f.shown named = f'.shown named) :
    Resembles named (g.addFunction f).1 (g'.addFunction f').1 ∧
      (g.addFunction f).2 = (g'.addFunction f').2 := by
  rw [Graph.addFunction, Graph.addFunction, ← Function.key_eq_of_shown hf, ← h.nodeId?_eq]
  cases g.nodeId? f.key with
  | some id => exact ⟨h.modifyNode id fun _ _ hsame => Function.shown_absorb hsame hf, rfl⟩
  | none => exact ⟨h.append hf, h.size_eq⟩

theorem ensureNode (h : Resembles named g g') (key : FunctionKey) :
    Resembles named (g.ensureNode key).1 (g'.ensureNode key).1 ∧
      (g.ensureNode key).2 = (g'.ensureNode key).2 := by
  rw [Graph.ensureNode, Graph.ensureNode, ← h.nodeId?_eq]
  cases g.nodeId? key with
  | some id => exact ⟨h, rfl⟩
  | none => exact h.addFunction rfl

theorem linkOverride (h : Resembles named g g') (overrider base : FunctionKey) :
    Resembles named (g.linkOverride overrider base) (g'.linkOverride overrider base) := by
  obtain ⟨habove, hid⟩ := h.ensureNode overrider
  obtain ⟨hbelow, hid'⟩ := habove.ensureNode base
  have hinsert : ∀ f f' : Function, f.shown named = f'.shown named →
      ({ f with overrides := f.overrides.insert base } : Function).shown named =
        ({ f' with overrides := f'.overrides.insert base } : Function).shown named := by
    intro f f' hsame
    exact congrArg (fun f : Function => { f with overrides := f.overrides.insert base }) hsame
  have hinsert' : ∀ f f' : Function, f.shown named = f'.shown named →
      ({ f with overriddenBy := f.overriddenBy.insert overrider } : Function).shown named =
        ({ f' with overriddenBy := f'.overriddenBy.insert overrider } : Function).shown named := by
    intro f f' hsame
    exact congrArg
      (fun f : Function => { f with overriddenBy := f.overriddenBy.insert overrider }) hsame
  simp only [Graph.linkOverride, ← hid, ← hid']
  split
  · exact hbelow
  · exact (hbelow.modifyNode _ hinsert).modifyNode _ hinsert'

theorem insertEdge (h : Resembles named g g') (e : Edge) {origin origin' : Option String}
    (horigin : shownOrigin named origin = shownOrigin named origin') :
    Resembles named (g.insertEdge e origin).1 (g'.insertEdge e origin').1 := by
  have hadmits : g.admits e = g'.admits e := by rw [admits, admits, h.size_eq]
  have hcontains : g.containsEdge e = g'.containsEdge e := by
    have hany : ∀ g : Graph, g.containsEdge e = (g.edges.map (·.edge)).any (· = e) := by
      intro g
      rw [containsEdge, List.any_map]
      rfl
    rw [hany, hany, h.edge_eq]
  rw [Graph.insertEdge, Graph.insertEdge, hadmits, hcontains]
  split
  · refine ⟨h.nodes, ?_⟩
    rw [List.map_append, List.map_append, h.edges, List.map_singleton, List.map_singleton]
    simp only [SourcedEdge.shown, horigin]
  · exact h

theorem addCall (h : Resembles named g g') (c : Call) :
    Resembles named (g.addCall c) (g'.addCall c) := by
  obtain ⟨hcaller, hid⟩ := h.ensureNode c.caller
  obtain ⟨hcallee, hid'⟩ := hcaller.ensureNode c.callee
  simp only [Graph.addCall, ← hid, ← hid']
  exact hcallee.insertEdge _ rfl

/-- Steps that do not count come to nothing. -/
theorem foldl_of_forall {α : Type} {step : Graph → α → Graph}
    (hstep : ∀ g x, Resembles named g (step g x)) (l : List α) (g : Graph) :
    Resembles named g (l.foldl step g) := by
  induction l generalizing g with
  | nil => exact .refl named g
  | cons x l ih => exact (hstep g x).trans (ih (step g x))

/-- Diagnostics do not count. -/
theorem addDiagnostic (named : Bool) (g : Graph) (d : Diagnostic) :
    Resembles named g (g.addDiagnostic d) := by
  rw [Graph.addDiagnostic]
  split
  · exact .refl named g
  · exact ⟨rfl, rfl⟩

end Resembles

end Graph

/-! ## Scopes -/

namespace Scope

/-- Two scopes are of one sort, and of one unit if the names of units count. -/
structure Resembles (named : Bool) (s s' : Scope) : Prop where
  isGlobal : s.isGlobal = s'.isGlobal
  unit : shownOrigin named (some s.unit) = shownOrigin named (some s'.unit)

variable {named : Bool} {s s' : Scope} {g g' : Graph}

theorem Resembles.refl (named : Bool) (s : Scope) : Resembles named s s := ⟨rfl, rfl⟩

theorem Resembles.origin (hs : s.Resembles named s') :
    shownOrigin named s.origin = shownOrigin named s'.origin := by
  rw [Scope.origin, Scope.origin, hs.isGlobal]
  split
  · rfl
  · exact hs.unit

theorem resembles_malformed (named : Bool) (s : Scope) (g : Graph) (detail : String) :
    g.Resembles named (s.malformed g detail) := by
  rw [malformed]
  split
  · exact .refl named g
  · exact .addDiagnostic named g _

/-- A node that had to be made is marked with the unit; what it was wanted for does not count. -/
theorem resembles_reference (hs : s.Resembles named s') (h : g.Resembles named g')
    (key : FunctionKey) (what what' : String) :
    (s.reference g key what).1.Resembles named (s'.reference g' key what').1 ∧
      (s.reference g key what).2 = (s'.reference g' key what').2 := by
  rw [reference, reference, Graph.ensureStub, Graph.ensureStub, ← h.nodeId?_eq]
  cases g.nodeId? key with
  | some id => exact ⟨h, rfl⟩
  | none =>
      have hstub : (Function.stubOf key).shown named = (Function.stubOf key).shown named := rfl
      obtain ⟨hadd, hid⟩ := h.addFunction hstub
      have hnoted := ((resembles_malformed named s _ (what ++ " references unknown symbol " ++
        key)).symm.trans hadd).trans
          (resembles_malformed named s' _ (what' ++ " references unknown symbol " ++ key))
      dsimp only
      rw [← hs.isGlobal, ← hid]
      refine ⟨?_, rfl⟩
      split
      · exact hnoted
      · refine hnoted.modifyNode _ fun f f' hsame => ?_
        exact Function.shown_eq_iff.mpr ⟨(Function.shown_eq_iff.mp hsame).1, hs.unit⟩

theorem resembles_call (hs : s.Resembles named s') (h : g.Resembles named g')
    (caller callee : FunctionKey) (kind : EdgeKind) (confidence : Confidence) :
    (s.call g caller callee kind confidence).1.Resembles named
      (s'.call g' caller callee kind confidence).1 := by
  obtain ⟨hcaller, hid⟩ := resembles_reference hs h caller "call site caller" "call site caller"
  obtain ⟨hcallee, hid'⟩ := resembles_reference hs hcaller callee ("call from " ++ caller)
    ("call from " ++ caller)
  simp only [call, ← hid, ← hid']
  exact hcallee.insertEdge _ hs.origin

end Scope

end CallGraphs
