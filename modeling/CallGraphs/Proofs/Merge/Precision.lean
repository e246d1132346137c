import CallGraphs.Proofs.Merge.Derivation
import Mathlib

/-!
# What a merge leaves over

Units may be analysed one by one and their graphs merged afterwards, or all
facts may be analysed as one unit.  The merged graph has the calls of that one
unit, and besides whatever was taken over from the graph of a unit
(`BothWays.call_mem_features_iff`).  How far do the two graphs differ?

Where the records of a class agree in all units and no function belongs to two
classes, they agree in every direct call, every virtual call, every call
through a pointer, and every possible constructor or destructor call
(`exists_sameEdge_of_merged`).  They differ in certain constructor and
destructor calls: a unit that does not see all classes below a class takes a
deletion for certain, a unit that does not see what a body spells out takes the
parts of its object for implicit, and the merge takes both over
(`certainLifetime_merged_iff`).
-/

namespace CallGraphs

namespace Merge

/-- The facts of a unit are part of those of several. -/
theorem within_joinFacts {units : List TranslationUnit} {u : TranslationUnit} (hu : u ∈ units) :
    u.Within (joinFacts units) where
  functions := fun _ h => List.mem_flatMap.mpr ⟨u, hu, h⟩
  classes := fun _ h => List.mem_flatMap.mpr ⟨u, hu, h⟩
  callSites := fun _ h => List.mem_flatMap.mpr ⟨u, hu, h⟩
  assignments := fun _ h => List.mem_flatMap.mpr ⟨u, hu, h⟩
  lifetimeEvents := fun _ h => List.mem_flatMap.mpr ⟨u, hu, h⟩

variable {digest : String → String} {options : Options} {cancelled : Bool}
  {units : List (Nat × TranslationUnit)} {parts : List UnitGraph} {g : Graph} {whole : UnitGraph}

namespace BothWays

/-- Both graphs come from resolving the facts of the one unit; the merge starts from the graphs of
the units. -/
theorem exists_resolutions (h : BothWays digest options cancelled units parts g whole) :
    ∃ (single : Resolution options whole.unit (DirectCalls.added whole.unit))
      (merged : Resolution options whole.unit
        (gather (inOrder parts) (taken (.ofUnits digest (inOrder parts))))),
      whole.graph.features = single.features ∧ g.features = merged.features ∧
      StartsFrom whole.unit (gather (inOrder parts) (taken (.ofUnits digest (inOrder parts)))) := by
  obtain ⟨name, index, hwhole⟩ := h.analyse_whole
  have hanalysed := UnitGraph.analysed_of_analyse hwhole
  obtain ⟨single, hsingle⟩ := hanalysed.features
  have hstart := startsFrom_taken (a := .ofUnits digest (inOrder parts)) h.analysed
  have hmerged := h.exists_merged
  rw [facts_of_excluded_eq_nil h.excluded_eq_nil, h.map_unit] at hstart
  rw [h.map_unit] at hmerged
  obtain ⟨merged, hfeatures⟩ := hmerged
  rw [hanalysed.unit]
  -- the facts of all units differ from the one unit in the name only
  exact ⟨single, ⟨merged.hierarchy, merged.held, merged.build, merged.isLeast⟩, hsingle, hfeatures,
    ⟨hstart.direct, hstart.body_iff⟩⟩

/-- The merged graph has the calls of the one unit, and what is taken over from units. -/
theorem call_mem_features_iff (h : BothWays digest options cancelled units parts g whole)
    {a b : FunctionKey} {k : EdgeKind} {c : Confidence} : .call a b k c ∈ g.features ↔
      .call a b k c ∈ whole.graph.features ∨
        ∃ p ∈ parts, .call a b k c ∈ taken (.ofUnits digest (inOrder parts)) p := by
  obtain ⟨single, merged, hsingle, hmerged, hstart⟩ := h.exists_resolutions
  have hparts : .call a b k c ∈ gather (inOrder parts) (taken (.ofUnits digest (inOrder parts))) ↔
      ∃ p ∈ parts, .call a b k c ∈ taken (.ofUnits digest (inOrder parts)) p :=
    exists_congr fun _ => and_congr_left fun _ => List.mem_mergeSort
  rw [hmerged, merged.call_mem_features_iff hstart, hsingle, single.call_mem_features_of_added,
    single.hierarchy_eq merged, single.held_eq merged, hparts]
  exact or_comm

theorem within_whole (h : BothWays digest options cancelled units parts g whole) {p : UnitGraph}
    (hp : p ∈ parts) : p.unit.Within whole.unit := by
  obtain ⟨name, index, hwhole⟩ := h.analyse_whole
  have hmem : p.unit ∈ (units.mergeSort fun a b => a.1 ≤ b.1).map (·.2) := by
    rw [← h.map_unit]
    exact List.mem_map_of_mem (List.mem_mergeSort.mpr hp)
  obtain ⟨hf, hc, hs, ha, he⟩ := within_joinFacts hmem
  rw [(UnitGraph.analysed_of_analyse hwhole).unit]
  exact ⟨hf, hc, hs, ha, he⟩

/-- What is taken over from a unit, the one unit derives too, unless it was outgrown. -/
theorem call_mem_whole_or_outgrown (h : BothWays digest options cancelled units parts g whole)
    (hagree : RecordsAgree whole.unit.classes)
    (hlisted : Hierarchy.ListedByOneClass whole.unit.classes) {p : UnitGraph} (hp : p ∈ parts)
    {a b : FunctionKey} {k : EdgeKind} {c : Confidence}
    (hx : .call a b k c ∈ taken (.ofUnits digest (inOrder parts)) p) :
    .call a b k c ∈ whole.graph.features ∨ (k = .implicit ∧ c = .definite) ∧
      ∃ hu hw, Hierarchy.build p.unit.classes p.unit.functions = .ok hu ∧
        Hierarchy.build whole.unit.classes whole.unit.functions = .ok hw ∧
        Outgrown options p.unit whole.unit hu hw a b := by
  obtain ⟨single, -, hsingle, -⟩ := h.exists_resolutions
  obtain ⟨hkeeps, r, hderived⟩ :=
    (call_mem_taken_iff (h.analysed p (List.mem_mergeSort.mpr hp))).mp hx
  have hcertain : ¬ (k = .virtual ∧ c = .definite) := by
    rintro ⟨rfl, rfl⟩
    exact absurd hkeeps (by simp [keepsCall])
  rw [hsingle, single.call_mem_features_of_added]
  refine (r.derived_within single (h.within_whole hp) hagree hlisted hderived hcertain).imp_right ?_
  rintro ⟨hkind, houtgrown⟩
  exact ⟨hkind, _, _, r.build, single.build, houtgrown⟩

end BothWays

/-! ## Main statements -/

/-- Every call of the merged graph that is not a certain constructor or destructor call is in the
graph of all facts together, if records of one class agree and every member function is listed by
one class.  Indices need not be distinct. -/
theorem exists_sameEdge_of_merged (h : BothWays digest options cancelled units parts g whole)
    (hagree : RecordsAgree whole.unit.classes)
    (hlisted : Hierarchy.ListedByOneClass whole.unit.classes) :
    ∀ call ∈ g.calls, ¬ (call.kind = .implicit ∧ call.confidence = .definite) →
      ∃ found ∈ whole.graph.calls, call.sameEdge found = true := by
  intro call hcall hcertain
  have hshown := Graph.call_mem_features.mpr ⟨call, hcall, rfl, rfl, rfl, rfl⟩
  have hwhole : .call call.caller call.callee call.kind call.confidence ∈
      whole.graph.features := by
    rcases h.call_mem_features_iff.mp hshown with hx | ⟨p, hp, hx⟩
    · exact hx
    · exact (h.call_mem_whole_or_outgrown hagree hlisted hp hx).resolve_right
        fun houtgrown => hcertain houtgrown.1
  obtain ⟨found, hfound, hcaller, hcallee, hkind, hconfidence⟩ :=
    Graph.call_mem_features.mp hwhole
  exact ⟨found, hfound, by simp [Call.sameEdge, hcaller, hcallee, hkind, hconfidence]⟩

/-- A class with a virtual method. -/
def calledClass : ClassRecord := { key := "A", methods := [⟨"f", "A::f"⟩] }

/-- One unit calls a method of a class, and another one has a class that overrides it. -/
def overrideAcrossUnits : List (Nat × TranslationUnit) :=
  [(0, { name := "use"
         functions := [{ key := "main", defined := true, bodyHash := some "main" },
           { key := "A::f", isVirtual := true }]
         classes := [calledClass]
         callSites := [{ caller := "main", target := .virtual "A" "f" }] }),
    (1, { name := "below"
          functions := [{ key := "B::f", defined := true, bodyHash := some "B::f" }]
          classes := [calledClass, { key := "B", bases := [{ className := "A" }],
                                     methods := [⟨"f", "B::f"⟩] }] })]

theorem overrideAcrossUnits_merged : ∃ parts g whole,
    BothWays id {} false overrideAcrossUnits parts g whole ∧ RecordsAgree whole.unit.classes ∧
    Hierarchy.ListedByOneClass whole.unit.classes ∧
    g.calls = [⟨"main", "A::f", .virtual, .may, none⟩, ⟨"main", "B::f", .virtual, .may, none⟩] ∧
    ∀ call ∈ g.calls, ¬ (call.kind = .implicit ∧ call.confidence = .definite) →
      ∃ found ∈ whole.graph.calls, call.sameEdge found = true := by
  obtain ⟨parts, g, whole, h, hagree, hlisted, hcalls⟩ : ∃ parts g whole,
      BothWays id {} false overrideAcrossUnits parts g whole ∧ RecordsAgree whole.unit.classes ∧
      Hierarchy.ListedByOneClass whole.unit.classes ∧ g.calls =
        [⟨"main", "A::f", .virtual, .may, none⟩, ⟨"main", "B::f", .virtual, .may, none⟩] :=
    ⟨_, _, _, ⟨by cbv, ⟨_, by cbv⟩, by cbv, ⟨"all", 0, by cbv⟩⟩, by decide, by decide, by cbv⟩
  exact ⟨parts, g, whole, h, hagree, hlisted, hcalls, exists_sameEdge_of_merged h hagree hlisted⟩

/-- The certain constructor and destructor calls of the merged graph are those of the graph of all
facts together, and those of units that the facts of all units have outgrown. -/
theorem certainLifetime_merged_iff (h : BothWays digest options cancelled units parts g whole)
    (hagree : RecordsAgree whole.unit.classes)
    (hlisted : Hierarchy.ListedByOneClass whole.unit.classes) (caller callee : FunctionKey) :
    .call caller callee .implicit .definite ∈ g.features ↔
      .call caller callee .implicit .definite ∈ whole.graph.features ∨
        ∃ p ∈ parts, ∃ hu hw, Hierarchy.build p.unit.classes p.unit.functions = .ok hu ∧
          Hierarchy.build whole.unit.classes whole.unit.functions = .ok hw ∧
          Outgrown options p.unit whole.unit hu hw caller callee := by
  rw [h.call_mem_features_iff]
  constructor
  · rintro (hx | ⟨p, hp, hx⟩)
    · exact Or.inl hx
    · exact (h.call_mem_whole_or_outgrown hagree hlisted hp hx).imp_right
        fun houtgrown => ⟨p, hp, houtgrown.2⟩
  · rintro (hx | ⟨p, hp, hu, hw, hbuild, -, houtgrown⟩)
    · exact Or.inl hx
    · have hanalysed := h.analysed p (List.mem_mergeSort.mpr hp)
      obtain ⟨r, -⟩ := hanalysed.features
      obtain rfl := Except.ok.inj (r.build.symm.trans hbuild)
      refine Or.inr ⟨p, hp, (call_mem_taken_iff hanalysed).mpr ⟨?_, r, houtgrown.derived⟩⟩
      simp [keepsCall, excludes_of_excluded_eq_nil h.excluded_eq_nil]

/-- A class with a virtual destructor. -/
def deletedClass : ClassRecord :=
  { key := "A", destructor := some { function := "A::~A", isVirtual := true } }

/-- A class below it. -/
def classBelow : ClassRecord :=
  { key := "B", bases := [{ className := "A" }], destructor := some { function := "B::~B" } }

/-- One unit deletes an object of a class, and another one has a class below it. -/
def deletionAcrossUnits : List (Nat × TranslationUnit) :=
  [(0, { name := "use"
         functions := [{ key := "main", defined := true, bodyHash := some "main" },
           { key := "A::~A", defined := true, bodyHash := some "A::~A" }]
         classes := [deletedClass]
         lifetimeEvents :=
           [{ caller := "main", kind := .heap, phase := .destroy, className := "A" }] }),
    (1, { name := "below"
          functions := [{ key := "B::~B", defined := true, bodyHash := some "B::~B" }]
          classes := [deletedClass, classBelow] })]

theorem deletionAcrossUnits_bothWays : ∃ parts g whole,
    BothWays id {} false deletionAcrossUnits parts g whole ∧ RecordsAgree whole.unit.classes ∧
    Hierarchy.ListedByOneClass whole.unit.classes ∧
    g.calls = [⟨"main", "A::~A", .implicit, .definite, some "use"⟩,
      ⟨"B::~B", "A::~A", .implicit, .definite, some "below"⟩,
      ⟨"main", "A::~A", .implicit, .may, none⟩, ⟨"main", "B::~B", .implicit, .may, none⟩] ∧
    whole.graph.calls = [⟨"main", "A::~A", .implicit, .may, some "all"⟩,
      ⟨"main", "B::~B", .implicit, .may, some "all"⟩,
      ⟨"B::~B", "A::~A", .implicit, .definite, some "all"⟩] :=
  ⟨_, _, _, ⟨by cbv, ⟨_, by cbv⟩, by cbv, ⟨"all", 0, by cbv⟩⟩, by decide, by decide, by cbv, by cbv⟩

/-- The unit that deletes the object takes its destructor for certain, and the merged graph keeps
that call, although any class below may be deleted. -/
theorem deletionAcrossUnits_leftOver : ∃ parts g whole,
    BothWays id {} false deletionAcrossUnits parts g whole ∧ RecordsAgree whole.unit.classes ∧
    Hierarchy.ListedByOneClass whole.unit.classes ∧
    ¬ ∀ call ∈ g.calls, call.kind = .implicit → call.confidence = .definite →
      ∃ found ∈ whole.graph.calls, call.sameEdge found = true := by
  obtain ⟨parts, g, whole, h, hagree, hlisted, hmerged, hwhole⟩ := deletionAcrossUnits_bothWays
  refine ⟨parts, g, whole, h, hagree, hlisted, ?_⟩
  rw [hmerged, hwhole]
  decide

theorem deletionAcrossUnits_outgrown : ∃ parts g whole,
    BothWays id {} false deletionAcrossUnits parts g whole ∧ RecordsAgree whole.unit.classes ∧
    Hierarchy.ListedByOneClass whole.unit.classes ∧
    ∃ p ∈ parts, ∃ hu hw, Hierarchy.build p.unit.classes p.unit.functions = .ok hu ∧
      Hierarchy.build whole.unit.classes whole.unit.functions = .ok hw ∧
      Outgrown {} p.unit whole.unit hu hw "main" "A::~A" := by
  obtain ⟨parts, g, whole, h, hagree, hlisted, hmerged, hwhole⟩ := deletionAcrossUnits_bothWays
  refine ⟨parts, g, whole, h, hagree, hlisted, ?_⟩
  have hcertain : .call "main" "A::~A" .implicit .definite ∈ g.features := by
    rw [Graph.call_mem_features, hmerged]
    decide
  have hnot : .call "main" "A::~A" .implicit .definite ∉ whole.graph.features := by
    rw [Graph.call_mem_features, hwhole]
    decide
  exact ((certainLifetime_merged_iff h hagree hlisted "main" "A::~A").mp hcertain).resolve_left hnot

end Merge

end CallGraphs
