import CallGraphs.Proofs.Merge.Union
import Mathlib

/-!
# Merging misses no call

Units may be analysed one by one and their graphs merged afterwards.  If no
definition is excluded, that finds every call that an analysis of all facts
together finds (`exists_sameEdge_of_bothWays`).

Both ways end with the same facts resolved, so by `Resolution.features_mono` it
comes down to where they start: whatever the direct calls of all facts show,
the union of the graphs shows too.
-/

namespace CallGraphs

namespace Merge

/-! ## Direct calls -/

theorem added_joinFacts (units : List TranslationUnit) :
    DirectCalls.added (joinFacts units) = gather units DirectCalls.added := by
  simp only [DirectCalls.added, joinFacts, gather_flatMap]
  ext x
  constructor
  · rintro ((⟨u, hu, hx⟩ | ⟨u, hu, hx⟩) | ⟨u, hu, hx⟩)
    · exact ⟨u, hu, Or.inl (Or.inl hx)⟩
    · exact ⟨u, hu, Or.inl (Or.inr hx)⟩
    · exact ⟨u, hu, Or.inr hx⟩
  · rintro ⟨u, hu, (hx | hx) | hx⟩
    · exact Or.inl (Or.inl ⟨u, hu, hx⟩)
    · exact Or.inl (Or.inr ⟨u, hu, hx⟩)
    · exact Or.inr ⟨u, hu, hx⟩

/-- Only direct calls come from the first pass. -/
theorem kind_of_mem_added {u : TranslationUnit} {caller callee : FunctionKey} {kind : EdgeKind}
    {confidence : Confidence} (h : .call caller callee kind confidence ∈ DirectCalls.added u) :
    kind = .direct := by
  rcases h with (⟨r, -, hx⟩ | ⟨r, -, base, -, hx⟩) | ⟨site, -, hx⟩
  · exact absurd hx (by simp [DirectCalls.ofRecord])
  · exact absurd hx (by simp)
  · rw [DirectCalls.ofSite] at hx
    cases htarget : site.target with
    | direct target =>
        rw [htarget] at hx
        obtain ⟨f, -, hx | hx | hx⟩ := hx
        · exact absurd hx (by simp)
        · exact absurd hx (by simp)
        · exact (Feature.call.inj hx).2.2.1
    | _ =>
        rw [htarget] at hx
        exact absurd hx (Set.notMem_empty _)

theorem keeps_of_mem_added {a : Arbitration} (ha : a.excluded = []) {u : TranslationUnit}
    {x : Feature} (hx : x ∈ DirectCalls.added u) (index : Nat) : Keeps a index x := by
  cases x with
  | node key => trivial
  | body key => exact excludes_of_excluded_eq_nil ha index key
  | call caller callee kind confidence =>
      obtain rfl := kind_of_mem_added hx
      simp [Keeps, keepsCall, excludes_of_excluded_eq_nil ha index caller]

/-- Whatever the first pass over all facts shows is taken over from some unit. -/
theorem added_subset_taken {options : Options} {a : Arbitration} (ha : a.excluded = [])
    {parts : List UnitGraph} (hparts : ∀ p ∈ parts, UnitGraph.Analysed options p.index p.unit p) :
    DirectCalls.added (joinFacts (parts.map (·.unit))) ⊆ gather parts (taken a) := by
  rw [added_joinFacts]
  rintro x ⟨u, hu, hx⟩
  obtain ⟨p, hp, rfl⟩ := List.mem_map.mp hu
  obtain ⟨r, hr⟩ := (hparts p hp).features
  refine ⟨p, hp, ?_, keeps_of_mem_added ha hx p.index⟩
  rw [hr]
  exact r.subset_features hx

/-! ## Main statement -/

/-- Every call in the graph of all facts together is in the graph that is merged from the graphs of
the units.  Indices need not be distinct: units of one index keep their order. -/
theorem exists_sameEdge_of_bothWays {digest : String → String} {options : Options}
    {cancelled : Bool} {units : List (Nat × TranslationUnit)} {parts : List UnitGraph} {g : Graph}
    {whole : UnitGraph}
    (h : BothWays digest options cancelled units parts g whole) :
    ∀ call ∈ whole.graph.calls, ∃ merged ∈ g.calls, call.sameEdge merged = true := by
  obtain ⟨merged, hmerged⟩ := h.exists_merged
  obtain ⟨single, hsingle⟩ := h.exists_single
  have hsub : whole.graph.features ⊆ g.features := by
    rw [hsingle, hmerged]
    exact single.features_mono merged (added_subset_taken h.excluded_eq_nil h.analysed)
  intro call hcall
  have hshown := hsub (Graph.call_mem_features.mpr ⟨call, hcall, rfl, rfl, rfl, rfl⟩)
  obtain ⟨found, hfound, hcaller, hcallee, hkind, hconfidence⟩ := Graph.call_mem_features.mp hshown
  exact ⟨found, hfound, by simp [Call.sameEdge, hcaller, hcallee, hkind, hconfidence]⟩

/-- One unit calls through a variable that another one, which comes before it, assigns. -/
def callbackAcrossUnits : List (Nat × TranslationUnit) :=
  [(1, { name := "use"
         functions := [{ key := "main", defined := true }]
         callSites := [{ caller := "main", target := .pointer (.global "callback") }] }),
    (0, { name := "set"
          functions := [{ key := "run", defined := true }]
          assignments := [{ source := .function "run", destination := .global "callback" }] })]

theorem callbackAcrossUnits_merged : ∃ parts g whole,
    BothWays id {} false callbackAcrossUnits parts g whole ∧
    whole.graph.calls = [⟨"main", "run", .pointer, .may, some "all"⟩] ∧
    ∀ call ∈ whole.graph.calls, ∃ merged ∈ g.calls, call.sameEdge merged = true := by
  obtain ⟨parts, g, whole, h, hcalls⟩ : ∃ parts g whole,
      BothWays id {} false callbackAcrossUnits parts g whole ∧
      whole.graph.calls = [⟨"main", "run", .pointer, .may, some "all"⟩] :=
    ⟨_, _, _, ⟨by cbv, ⟨_, by cbv⟩, by cbv, ⟨"all", 0, by cbv⟩⟩, by cbv⟩
  exact ⟨parts, g, whole, h, hcalls, exists_sameEdge_of_bothWays h⟩

end Merge

end CallGraphs
