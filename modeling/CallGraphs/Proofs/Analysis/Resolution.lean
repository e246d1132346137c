import CallGraphs.Analysis.UnitGraph
import CallGraphs.Proofs.Analysis.Passes
import CallGraphs.Proofs.Analysis.Pointers

/-!
# How facts are resolved

The passes for virtual calls, pointers and lifetimes run one after the other,
over the graph of one unit and again over the union of all graphs.  A
`Resolution` is what such a run comes to, by keys: the hierarchy of the classes
and what the slots hold at least.  Two resolutions of the same facts have the
same hierarchy, and the one that starts from more shows more (`features_mono`).
-/

namespace CallGraphs

open CallGraphs.Flow

/-- The hierarchy of the facts of a unit, and what the slots hold over a graph that shows so
much. -/
structure Resolution (options : Options) (u : TranslationUnit) (shown : Set Feature) where
  hierarchy : Hierarchy
  held : Family FunctionKey
  build : Hierarchy.build u.classes u.functions = .ok hierarchy
  isLeast : IsLeast {F | Solves (PointerCalls.asked hierarchy options.returnFlow u
    (shown ∪ VirtualCalls.added hierarchy u ∪ PointerCalls.referred hierarchy u)) id F} held

namespace Resolution

variable {options : Options} {u : TranslationUnit} {shown more : Set Feature}

/-- What there is once virtual calls and pointers are resolved. -/
def called (r : Resolution options u shown) : Set Feature :=
  shown ∪ VirtualCalls.added r.hierarchy u ∪ (PointerCalls.referred r.hierarchy u ∪
    gather u.callSites (PointerCalls.ofIndirect r.hierarchy r.held))

/-- What there is once all is resolved. -/
def features (r : Resolution options u shown) : Set Feature :=
  r.called ∪ LifetimeCalls.added options r.hierarchy u r.called

theorem subset_features (r : Resolution options u shown) : shown ⊆ r.features :=
  fun _ hx => Or.inl (Or.inl (Or.inl hx))

/-- The name of a unit does not matter. -/
def rename {name : String} (r : Resolution options { u with name := name } shown) :
    Resolution options u shown :=
  ⟨r.hierarchy, r.held, r.build, r.isLeast⟩

section Monotone

variable (r : Resolution options u shown) (r' : Resolution options u more)

theorem hierarchy_eq : r.hierarchy = r'.hierarchy :=
  Except.ok.inj (r.build.symm.trans r'.build)

theorem held_mono (hsub : shown ⊆ more) : r.held ≤ r'.held := by
  -- what solves the constraints over more solves those over less
  have hless := r'.isLeast.1
  rw [← hierarchy_eq r r'] at hless
  refine r.isLeast.2 (hless.anti fun c hc => Or.inl (PointerCalls.asked_mono ?_ hc))
  exact Set.union_subset_union_left _ (Set.union_subset_union_left _ hsub)

theorem called_mono (hsub : shown ⊆ more) : r.called ⊆ r'.called := by
  have hheld : r.held ≤ r'.held := held_mono r r' hsub
  rw [called, called, ← hierarchy_eq r r']
  refine Set.union_subset_union (Set.union_subset_union_left _ hsub)
    (Set.union_subset_union_right _ ?_)
  rintro x ⟨site, hsite, hx⟩
  exact ⟨site, hsite, PointerCalls.ofIndirect_mono hheld site hx⟩

/-- Whoever starts from more ends with more. -/
theorem features_mono (hsub : shown ⊆ more) : r.features ⊆ r'.features := by
  have hcalled : r.called ⊆ r'.called := called_mono r r' hsub
  rw [features, features, ← hierarchy_eq r r']
  exact Set.union_subset_union hcalled (LifetimeCalls.added_mono r.hierarchy hcalled)

end Monotone

end Resolution

/-! ## The passes together -/

theorem exists_resolution {s : Scope} {options : Options} {cancelled : Bool} {u : TranslationUnit}
    {g g₁ g₂ : Graph} {h : Hierarchy} {dispatch : DispatchStats} {flow : FlowReport}
    (hg : g.WellFormed) (hvirtual : VirtualCalls.run s u g = .ok (g₁, h, dispatch))
    (hpointers : PointerCalls.run s options cancelled h u g₁ = (g₂, .ok flow)) :
    (LifetimeCalls.run s options h u g₂).1.WellFormed ∧ ∃ r : Resolution options u g.features,
      (LifetimeCalls.run s options h u g₂).1.features = r.features := by
  obtain ⟨hbuild, hfirst⟩ := VirtualCalls.adds_run s hg hvirtual
  obtain ⟨F, hleast, hsecond⟩ := PointerCalls.adds_run s options hfirst.wellFormed hpointers
  have hthird := LifetimeCalls.adds_run s h options hsecond.wellFormed u
  rw [hfirst.features] at hleast
  refine ⟨hthird.wellFormed, ⟨h, F, hbuild, hleast⟩, ?_⟩
  rw [hthird.features, hsecond.features, hfirst.features]
  rfl

namespace UnitGraph

/-- What the analysis of a unit comes to. -/
structure Analysed (options : Options) (index : Nat) (u : TranslationUnit) (p : UnitGraph) :
    Prop where
  index : p.index = index
  unit : p.unit = u
  wellFormed : p.graph.WellFormed
  features : ∃ r : Resolution options u (DirectCalls.added u), p.graph.features = r.features

theorem analysed_of_analyse {options : Options} {cancelled : Bool} {index : Nat}
    {u : TranslationUnit} {p : UnitGraph} (hok : analyse options cancelled index u = .ok p) :
    Analysed options index u p := by
  have hdirect := DirectCalls.adds_run { unit := u.name } Graph.wellFormed_empty u
  have hshown := hdirect.features
  rw [Graph.features_empty, Set.empty_union] at hshown
  simp only [analyse] at hok
  split at hok
  · exact absurd hok (by simp)
  split at hok
  · exact absurd hok (by simp)
  · next g₁ h dispatch hvirtual =>
    split at hok
    · exact absurd hok (by simp)
    · next g₂ flow hpointers =>
      obtain ⟨hwell, hresolved⟩ := exists_resolution hdirect.wellFormed hvirtual hpointers
      rw [hshown] at hresolved
      obtain rfl := Except.ok.inj hok
      exact ⟨rfl, rfl, hwell, hresolved⟩

end UnitGraph

end CallGraphs
