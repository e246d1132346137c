import CallGraphs.Analysis.DirectCalls
import CallGraphs.Analysis.LifetimeCalls
import CallGraphs.Analysis.PointerCalls
import CallGraphs.Analysis.VirtualCalls
import CallGraphs.Proofs.Echo
import CallGraphs.Proofs.Graph.Resemblance

/-!
# Passes as lists of entries

Up to diagnostics, what a pass does at a fact is to enter functions and calls
into the graph, one after the other, and which ones depends on the facts and the
hierarchy.  So a pass comes to a list of entries (`GraphEntry`).  What has been
entered stays there, and to enter it again changes nothing
(`GraphEntry.enter_of_entered`); so entries that are repeated change nothing either
(`GraphEntry.resembles_of_echoes`).
-/

namespace CallGraphs

open CallGraphs.Graph

/-! ## Operations with nothing to do -/

theorem Scope.reference_of_mem (s : Scope) {g : Graph} {key : FunctionKey} {id : NodeId}
    (hid : g.nodeId? key = some id) (what : String) : s.reference g key what = (g, id) := by
  rw [Scope.reference, ensureStub, hid]

namespace Graph

variable {g : Graph}

theorem modifyNode_of_forall {id : NodeId} {change : Function → Function}
    (h : ∀ f, g.nodes[id]? = some f → change f = f) : g.modifyNode id change = g := by
  have hnodes : g.nodes.modify id change = g.nodes := by
    refine List.ext_getElem? fun i => ?_
    rw [List.getElem?_modify]
    cases hf : g.nodes[i]? with
    | none => rfl
    | some f =>
        by_cases hid : id = i
        · subst hid
          simp [h f hf]
        · simp [hid]
  rw [modifyNode, hnodes]

theorem insertEdge_of_mem {e : Edge} (he : e ∈ g.edges.map (·.edge)) (origin : Option String) :
    (g.insertEdge e origin).1 = g := by
  have hcontains : g.containsEdge e = true := by
    obtain ⟨x, hx, rfl⟩ := List.mem_map.mp he
    exact List.any_eq_true.mpr ⟨x, hx, decide_eq_true rfl⟩
  rw [insertEdge, hcontains, Bool.not_true, Bool.and_false]
  rfl

/-- The edge of a call that the graph shows. -/
theorem exists_edge_of_call (hg : g.WellFormed) {a b : FunctionKey} {k : EdgeKind} {c : Confidence}
    (h : .call a b k c ∈ g.features) : ∃ source target, g.nodeId? a = some source ∧
      g.nodeId? b = some target ∧ ⟨source, target, k, c⟩ ∈ g.edges.map (·.edge) := by
  obtain ⟨e, he, rfl, rfl, rfl, rfl⟩ := h
  obtain ⟨hsource, htarget⟩ := hg.closed e he
  exact ⟨_, _, nodeId?_keyOf hg.nodup hsource, nodeId?_keyOf hg.nodup htarget,
    List.mem_map_of_mem he⟩

end Graph

/-! ## Entries -/

/-- Something that a fact enters into the graph. -/
inductive GraphEntry where
  /-- A function that is referred to. -/
  | function (key : FunctionKey)
  /-- A function that is referred to as a lambda expression. -/
  | lambda (key : FunctionKey)
  | call (caller callee : FunctionKey) (kind : EdgeKind) (confidence : Confidence)

namespace GraphEntry

/-- The graph with an entry made. -/
def enter (s : Scope) (g : Graph) : GraphEntry → Graph
  | function key => (s.reference g key "").1
  | lambda key =>
    (s.reference g key "").1.modifyNode (s.reference g key "").2
      fun f => { f with isLambda := true }
  | call caller callee kind confidence => (s.call g caller callee kind confidence).1

/-- The graph with entries made in order. -/
def enterAll (s : Scope) (g : Graph) (entries : List GraphEntry) : Graph :=
  entries.foldl (enter s) g

/-- The graph has an entry. -/
def Entered (g : Graph) : GraphEntry → Prop
  | function key => .node key ∈ g.features
  | lambda key => (key, .lambda) ∈ g.traits
  | call caller callee kind confidence => .call caller callee kind confidence ∈ g.features

variable {named : Bool} {s s' : Scope} {g g' : Graph}

/-! ## Growth -/

theorem wellFormed_enter (s : Scope) (hg : g.WellFormed) (x : GraphEntry) :
    (enter s g x).WellFormed := by
  cases x with
  | function key => exact (s.located_reference hg key "").wellFormed
  | lambda key =>
      have href := (s.located_reference hg key "").wellFormed
      exact (adds_modifyNode_of_sameBody href _ (fun f => { f with isLambda := true })
        (fun _ => rfl) fun _ => rfl).wellFormed
  | call caller callee kind confidence =>
      exact (s.adds_call hg caller callee kind confidence).wellFormed

theorem wellFormed_enterAll (s : Scope) (hg : g.WellFormed) (l : List GraphEntry) :
    (enterAll s g l).WellFormed := by
  induction l generalizing g with
  | nil => exact hg
  | cons x l ih => exact ih (wellFormed_enter s hg x)

theorem features_subset_enter (s : Scope) (hg : g.WellFormed) (x : GraphEntry) :
    g.features ⊆ (enter s g x).features := by
  cases x with
  | function key =>
      rw [enter, (s.located_reference hg key "").features]
      exact Set.subset_union_left
  | lambda key =>
      have href := s.located_reference hg key ""
      rw [enter, (adds_modifyNode_of_sameBody href.wellFormed _
        (fun f => { f with isLambda := true }) (fun _ => rfl) fun _ => rfl).features, href.features]
      exact fun _ hx => Or.inl (Or.inl hx)
  | call caller callee kind confidence =>
      rw [enter, (s.adds_call hg caller callee kind confidence).features]
      exact Set.subset_union_left

theorem traits_subset_enter (s : Scope) (hg : g.WellFormed) (x : GraphEntry) :
    g.traits ⊆ (enter s g x).traits := by
  cases x with
  | function key =>
      rw [enter, (s.evolves_reference g key "").traits]
      exact Set.subset_union_left
  | lambda key =>
      have hid := (s.located_reference hg key "").nodeId?
      rw [enter, (evolves_markLambda hid).traits, (s.evolves_reference g key "").traits]
      exact fun _ hx => Or.inl (Or.inl hx)
  | call caller callee kind confidence =>
      rw [enter, (s.evolves_call g caller callee kind confidence).traits]
      exact Set.subset_union_left

/-- What has been entered stays there. -/
theorem Entered.enter {x : GraphEntry} (h : Entered g x) (s : Scope) (hg : g.WellFormed)
    (y : GraphEntry) : Entered (enter s g y) x := by
  cases x with
  | function key => exact features_subset_enter s hg y h
  | lambda key => exact traits_subset_enter s hg y h
  | call caller callee kind confidence => exact features_subset_enter s hg y h

theorem entered_enter (s : Scope) (hg : g.WellFormed) (x : GraphEntry) :
    Entered (enter s g x) x := by
  cases x with
  | function key =>
      rw [Entered, GraphEntry.enter, (s.located_reference hg key "").features]
      exact Or.inr rfl
  | lambda key =>
      have hid := (s.located_reference hg key "").nodeId?
      rw [Entered, GraphEntry.enter, (evolves_markLambda hid).traits]
      exact Or.inr rfl
  | call caller callee kind confidence =>
      rw [Entered, GraphEntry.enter, (s.adds_call hg caller callee kind confidence).features]
      exact Or.inr (Or.inr (Or.inr rfl))

/-! ## Entries that are there -/

theorem enter_of_entered (s : Scope) (hg : g.WellFormed) {x : GraphEntry} (h : Entered g x) :
    enter s g x = g := by
  cases x with
  | function key =>
      obtain ⟨id, hid⟩ := node_mem_features.mp h
      rw [enter, s.reference_of_mem hid]
  | lambda key =>
      obtain ⟨id, hid⟩ := node_mem_features.mp (mem_keys_of_mem_traits h)
      rw [enter, s.reference_of_mem hid]
      refine modifyNode_of_forall fun f hf => ?_
      obtain ⟨f', hf', hkey⟩ := exists_getElem?_of_nodeId? hid
      obtain rfl := Option.some.inj (hf.symm.trans hf')
      have hlambda : f.Has .lambda := by
        rw [has_iff_mem_traits hg.nodup (List.mem_of_getElem? hf), hkey]
        exact h
      have hflag : f.isLambda = true := hlambda
      rw [← hflag]
  | call caller callee kind confidence =>
      obtain ⟨source, target, hsource, htarget, he⟩ := exists_edge_of_call hg h
      simp only [enter, Scope.call, s.reference_of_mem hsource, s.reference_of_mem htarget]
      exact insertEdge_of_mem he _

/-! ## Entries in order -/

theorem resembles_enter (hs : s.Resembles named s') (h : g.Resembles named g') (x : GraphEntry) :
    (enter s g x).Resembles named (enter s' g' x) := by
  cases x with
  | function key => exact (Scope.resembles_reference hs h key "" "").1
  | lambda key =>
      obtain ⟨href, hid⟩ := Scope.resembles_reference hs h key "" ""
      rw [enter, enter, ← hid]
      refine href.modifyNode _ fun f f' hsame => ?_
      exact congrArg (fun f : Function => { f with isLambda := true }) hsame
  | call caller callee kind confidence => exact Scope.resembles_call hs h _ _ _ _

theorem resembles_enterAll (hs : s.Resembles named s') (h : g.Resembles named g')
    (l : List GraphEntry) : (enterAll s g l).Resembles named (enterAll s' g' l) :=
  List.foldl_rel h fun x _ _ _ hrel => resembles_enter hs hrel x

/-- Entries that are repeated change nothing. -/
theorem resembles_of_echoes {l l' : List GraphEntry} (he : Echoes [] l l')
    (hs : s.Resembles named s') (hg : g'.WellFormed) (h : g.Resembles named g') :
    (enterAll s g l).Resembles named (enterAll s' g' l') := by
  refine (he.foldl (R := fun (g g' : Graph) => g.Resembles named g' ∧ g'.WellFormed)
    (D := fun x g => Entered g x) ?_ ?_ ?_ ?_ ⟨h, hg⟩ ?_).1
  · exact fun g g' x hgg => ⟨resembles_enter hs hgg.1 x, wellFormed_enter s' hgg.2 x⟩
  · exact fun g g' x hgg => entered_enter s' hgg.2 x
  · exact fun g g' x y hgg hy => hy.enter s' hgg.2 x
  · intro g g' x hgg hx
    rw [enter_of_entered s' hgg.2 hx]
    exact hgg
  · exact fun x hx => absurd hx List.not_mem_nil

/-- A pass that makes entries at every fact makes them in order. -/
theorem resembles_foldl {σ α : Type} (graph : σ → Graph) (I : σ → Prop) {step : σ → α → σ}
    {entries : α → List GraphEntry}
    (hstep : ∀ st x, I st →
      (graph (step st x)).Resembles named (enterAll s (graph st) (entries x)) ∧ I (step st x))
    (l : List α) {st : σ} (hI : I st) :
    (graph (l.foldl step st)).Resembles named (enterAll s (graph st) (l.flatMap entries)) := by
  induction l generalizing st with
  | nil => exact .refl named _
  | cons x l ih =>
      obtain ⟨hhead, hI'⟩ := hstep st x hI
      rw [List.foldl_cons, List.flatMap_cons, enterAll, List.foldl_append]
      exact (ih hI').trans (resembles_enterAll (.refl named s) hhead _)

/-! ## Calls -/

/-- The entries of calls from one function to several. -/
def calls (caller : FunctionKey) (callees : List FunctionKey) (kind : EdgeKind)
    (confidence : Confidence) : List GraphEntry :=
  callees.map (call caller · kind confidence)

theorem callAll_eq (s : Scope) (g : Graph) (caller : FunctionKey) (callees : List FunctionKey)
    (kind : EdgeKind) (confidence : Confidence) :
    (s.callAll g caller callees kind confidence).1 =
      enterAll s g (calls caller callees kind confidence) := by
  rw [Scope.callAll, enterAll, calls, List.foldl_map]
  refine (List.foldl_hom Prod.fst ?_).symm
  rintro ⟨g, count⟩ callee
  show (s.call g caller callee kind confidence).1 = _
  dsimp only
  rcases s.call g caller callee kind confidence with ⟨g', isNew⟩
  cases isNew with
  | true => rfl
  | false => rfl

end GraphEntry

end CallGraphs
