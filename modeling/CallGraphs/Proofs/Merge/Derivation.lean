import CallGraphs.Proofs.Analysis.Growth
import CallGraphs.Proofs.Merge.Union

/-!
# Why a call is in a merged graph

A call is in a merged graph for one of two reasons.  The facts that are kept
give rise to it when they are resolved together; or the facts of one unit gave
rise to it when they were resolved alone, and it was taken over
(`call_mem_merged_iff`).  Definitions may be excluded here.
-/

namespace CallGraphs

namespace Merge

variable {options : Options} {a : Arbitration} {parts : List UnitGraph}

/-! ## Facts that are kept -/

theorem mem_callSites_facts {site : CallSite} : site ∈ (facts a parts).callSites ↔
    ∃ p ∈ parts, site ∈ p.unit.callSites ∧ a.excludes p.index site.caller = false := by
  simp [facts, joinFacts, keptFacts]

/-- A function has a body among the facts that are kept if some unit has its body and the definition
is not excluded. -/
theorem defines_facts_iff {f : FunctionKey} : (facts a parts).Defines f ↔
    ∃ p ∈ parts, p.unit.Defines f ∧ a.excludes p.index f = false := by
  constructor
  · rintro ⟨r, hr, hdefined, rfl⟩
    obtain ⟨u, hu, hr⟩ := List.mem_flatMap.mp hr
    obtain ⟨p, hp, rfl⟩ := List.mem_map.mp hu
    obtain ⟨hmem, hkept⟩ := List.mem_filter.mp hr
    exact ⟨p, hp, ⟨r, hmem, hdefined, rfl⟩, by simpa [hdefined] using hkept⟩
  · rintro ⟨p, hp, ⟨r, hr, hdefined, rfl⟩, hkept⟩
    refine ⟨r, List.mem_flatMap.mpr ⟨keptFacts a p, List.mem_map_of_mem hp, ?_⟩, hdefined, rfl⟩
    exact List.mem_filter.mpr ⟨hr, by simp [hkept]⟩

/-! ## What the passes over all facts start from -/

theorem keepsCall_direct {index : Nat} {caller callee : FunctionKey}
    (hkept : a.excludes index caller = false) :
    keepsCall a index ⟨caller, callee, .direct, .definite, none⟩ = true := by
  simp [keepsCall, hkept]

/-- The union of the graphs shows the direct calls and the bodies of the facts that are kept. -/
theorem startsFrom_taken (hparts : ∀ p ∈ parts, UnitGraph.Analysed options p.index p.unit p) :
    StartsFrom (facts a parts) (gather parts (taken a)) where
  direct := by
    intro site hsite x hx
    obtain ⟨p, hp, hmem, hkept⟩ := mem_callSites_facts.mp hsite
    obtain ⟨r, hr⟩ := (hparts p hp).features
    refine ⟨p, hp, ?_, ?_⟩
    · rw [hr]
      exact r.subset_features (Or.inr ⟨site, hmem, hx⟩)
    · rw [DirectCalls.ofSite] at hx
      split at hx
      · obtain ⟨callee, -, rfl | rfl | rfl⟩ := hx
        · trivial
        · trivial
        · exact keepsCall_direct hkept
      · exact absurd hx (Set.notMem_empty x)
  body_iff f := by
    rw [defines_facts_iff]
    refine exists_congr fun p => and_congr_right fun hp => ?_
    exact and_congr_left fun _ => (hparts p hp).body_mem_features_iff

/-- A call that is taken over from a unit follows from the facts of the unit. -/
theorem call_mem_taken_iff {p : UnitGraph} (hp : UnitGraph.Analysed options p.index p.unit p)
    {caller callee : FunctionKey} {kind : EdgeKind} {confidence : Confidence} :
    .call caller callee kind confidence ∈ taken a p ↔
      keepsCall a p.index ⟨caller, callee, kind, confidence, none⟩ = true ∧
        ∃ r : Resolution options p.unit (DirectCalls.added p.unit),
          Derived options p.unit r.hierarchy r.held caller callee kind confidence := by
  obtain ⟨r, hr⟩ := hp.features
  constructor
  · rintro ⟨hx, hkeeps⟩
    rw [hr, r.call_mem_features_of_added] at hx
    exact ⟨hkeeps, r, hx⟩
  · rintro ⟨hkeeps, r', hderived⟩
    refine ⟨?_, hkeeps⟩
    rw [hr, r.call_mem_features_of_added, r.hierarchy_eq r', r.held_eq r']
    exact hderived

/-- The calls of a merged graph are those taken over from units and those that follow from the facts
that are kept. -/
theorem call_mem_merged_iff (hparts : ∀ p ∈ parts, UnitGraph.Analysed options p.index p.unit p)
    (r : Resolution options (facts a parts) (gather parts (taken a))) {caller callee : FunctionKey}
    {kind : EdgeKind} {confidence : Confidence} :
    .call caller callee kind confidence ∈ r.features ↔
      (∃ p ∈ parts, .call caller callee kind confidence ∈ taken a p) ∨
        Derived options (facts a parts) r.hierarchy r.held caller callee kind confidence :=
  r.call_mem_features_iff (startsFrom_taken hparts)

end Merge

end CallGraphs
