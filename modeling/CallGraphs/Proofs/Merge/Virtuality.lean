import CallGraphs.Proofs.Merge.Sites
import CallGraphs.Proofs.Merge.Traits
import Mathlib

/-!
# Override links and virtual functions

Whoever overrides a function is virtual, and so is what it overrides: in a
hierarchy both ends of every link are (`Hierarchy.LinksVirtual`).  In a graph
this need not show.  The functions that are in the graph are marked before the
links are added, and a link brings its ends in; an end that comes in this way
stays unmarked (`unlistedOverriders_unmarked`).

So in the graph of a unit a linked function is marked if and only if a record or
a direct call of the unit names it.  A merge marks again, and its linked
functions are marked if and only if some unit has them and they are virtual for
that unit or for all units together (`linked_isVirtual_iff`).
-/

namespace CallGraphs

open CallGraphs.Graph

/-- The function overrides another one or is overridden. -/
def Function.Linked (f : Function) : Prop :=
  (∃ base, base ∈ f.overrides) ∨ ∃ overrider, overrider ∈ f.overriddenBy

/-- The trait is an end of an override link. -/
def Trait.IsLink (t : Trait) : Prop := (∃ base, t = .overrides base) ∨ ∃ f, t = .overriddenBy f

theorem Function.linked_iff {f : Function} : f.Linked ↔ ∃ t, t.IsLink ∧ f.Has t := by
  constructor
  · rintro (⟨base, hbase⟩ | ⟨overrider, hoverrider⟩)
    · exact ⟨.overrides base, Or.inl ⟨base, rfl⟩, hbase⟩
    · exact ⟨.overriddenBy overrider, Or.inr ⟨overrider, rfl⟩, hoverrider⟩
  · rintro ⟨t, ⟨base, rfl⟩ | ⟨overrider, rfl⟩, hhas⟩
    · exact Or.inl ⟨base, hhas⟩
    · exact Or.inr ⟨overrider, hhas⟩

/-- A link that the second pass brings is one of the hierarchy. -/
theorem VirtualCalls.exists_override_of_mem_marked {h : Hierarchy} {shown : Set Feature}
    {key : FunctionKey} {t : Trait} (ht : t.IsLink) (hx : (key, t) ∈ marked h shown) :
    ∃ o ∈ h.overrides, key = o.overrider ∨ key = o.base := by
  rcases hx with ⟨rfl, -⟩ | ⟨o, ho, ⟨-, hx | hx⟩ | ⟨rfl, -⟩⟩
  · exact absurd ht (by simp [Trait.IsLink])
  · exact ⟨o, ho, Or.inl (Prod.mk.inj hx).1⟩
  · exact ⟨o, ho, Or.inr (Prod.mk.inj hx).1⟩
  · exact absurd ht (by simp [Trait.IsLink])

/-- A link that the first pass brings is one that a record declares. -/
theorem DirectCalls.exists_declared_of_mem_marked {u : TranslationUnit} {key : FunctionKey}
    {t : Trait} (ht : t.IsLink) (hx : (key, t) ∈ marked u) :
    ∃ o ∈ Hierarchy.declaredOverrides u.functions, key = o.overrider ∨ key = o.base := by
  rcases hx with ⟨r, -, -, hsays⟩ | ⟨r, hr, base, hbase, -, hx⟩
  · obtain ⟨_, rfl⟩ | ⟨_, rfl⟩ := ht
    · exact absurd hsays not_false
    · exact absurd hsays not_false
  · refine ⟨⟨r.key, base⟩, ?_, hx.imp (fun h => (Prod.mk.inj h).1) fun h => (Prod.mk.inj h).1⟩
    exact List.mem_flatMap.mpr ⟨r, hr, List.mem_map_of_mem hbase⟩

theorem VirtualCalls.virtual_mem_marked {h : Hierarchy} {shown : Set Feature} {key : FunctionKey} :
    (key, .virtual) ∈ marked h shown ↔ key ∈ h.virtuals ∧ .node key ∈ shown := by
  constructor
  · rintro (⟨-, hv, hnode⟩ | ⟨o, -, ⟨-, hx | hx⟩ | ⟨hx, -⟩⟩)
    · exact ⟨hv, hnode⟩
    · exact absurd hx (by simp)
    · exact absurd hx (by simp)
    · exact absurd hx (by simp)
  · exact fun hv => Or.inl ⟨rfl, hv⟩

/-- A record of the unit or a direct call in it names a function. -/
def TranslationUnit.Names (u : TranslationUnit) (key : FunctionKey) : Prop :=
  (∃ r ∈ u.functions, key = r.key ∨ key ∈ r.overrides) ∨
    ∃ site ∈ u.callSites, ∃ callee, site.target = .direct callee ∧
      (key = site.caller ∨ key = callee)

theorem DirectCalls.node_mem_added_iff {u : TranslationUnit} {key : FunctionKey} :
    .node key ∈ added u ↔ u.Names key := by
  constructor
  · rintro ((⟨r, hr, hx | ⟨-, hx⟩⟩ | ⟨r, hr, base, hbase, hx | hx⟩) | ⟨site, hsite, hx⟩)
    · exact Or.inl ⟨r, hr, Or.inl (Feature.node.inj hx)⟩
    · exact absurd hx (by simp)
    · exact Or.inl ⟨r, hr, Or.inl (Feature.node.inj hx)⟩
    · exact Or.inl ⟨r, hr, Or.inr (Feature.node.inj hx ▸ hbase)⟩
    · rw [ofSite] at hx
      split at hx
      · next callee htarget =>
        obtain ⟨f, hf, hx | hx | hx⟩ := hx
        · exact Or.inr ⟨site, hsite, callee, htarget, Or.inl (Feature.node.inj hx)⟩
        · obtain rfl := List.mem_singleton.mp hf
          exact Or.inr ⟨site, hsite, f, htarget, Or.inr (Feature.node.inj hx)⟩
        · exact absurd hx (by simp)
      · exact absurd hx (Set.notMem_empty _)
  · rintro (⟨r, hr, rfl | hbase⟩ | ⟨site, hsite, callee, htarget, hend⟩)
    · exact Or.inl (Or.inl ⟨r, hr, Or.inl rfl⟩)
    · exact Or.inl (Or.inr ⟨r, hr, key, hbase, Or.inr rfl⟩)
    · refine Or.inr ⟨site, hsite, ?_⟩
      rw [ofSite, htarget]
      refine ⟨callee, List.mem_singleton_self callee, ?_⟩
      exact hend.imp (congrArg _) fun h => Or.inl (congrArg _ h)

/-! ## Units -/

namespace UnitGraph.Marked

variable {u : TranslationUnit} {h : Hierarchy} {g : Graph}

/-- The links of a unit lead between virtual functions, those of the hierarchy and those that the
records declare. -/
theorem virtual_of_link (hm : Marked u h g)
    (hbuild : Hierarchy.build u.classes u.functions = .ok h) {key : FunctionKey} {t : Trait}
    (ht : t.IsLink) (hx : (key, t) ∈ g.traits) : key ∈ h.virtuals := by
  obtain ⟨order, hb⟩ := Hierarchy.exists_built hbuild
  rw [hm.traits] at hx
  rcases hx with hx | hx | ⟨hx, -⟩
  · obtain ⟨o, ho, hend⟩ := DirectCalls.exists_declared_of_mem_marked ht hx
    exact hb.settled.declared key (Or.inr ⟨o, ho, hend⟩)
  · obtain ⟨o, ho, rfl | rfl⟩ := VirtualCalls.exists_override_of_mem_marked ht hx
    · exact (hb.linksVirtual o ho).1
    · exact (hb.linksVirtual o ho).2
  · subst hx
    exact absurd ht (by simp [Trait.IsLink])

/-- A function of a unit is marked if it is virtual and was there before the links. -/
theorem virtual_iff (hm : Marked u h g)
    (hbuild : Hierarchy.build u.classes u.functions = .ok h) {key : FunctionKey} :
    (key, .virtual) ∈ g.traits ↔ key ∈ h.virtuals ∧ u.Names key := by
  obtain ⟨order, hb⟩ := Hierarchy.exists_built hbuild
  rw [hm.traits, ← DirectCalls.node_mem_added_iff, ← VirtualCalls.virtual_mem_marked]
  constructor
  · rintro (hx | hx | ⟨hx, -⟩)
    · rcases hx with ⟨r, hr, rfl, hvirtual⟩ | ⟨r, -, base, -, -, hx | hx⟩
      · refine VirtualCalls.virtual_mem_marked.mpr ⟨hb.settled.declared _ (Or.inl ?_),
          Or.inl (Or.inl ⟨r, hr, Or.inl rfl⟩)⟩
        exact Hierarchy.mem_declaredVirtuals.mpr (Or.inl ⟨r, hr, hvirtual, rfl⟩)
      · exact absurd hx (by simp)
      · exact absurd hx (by simp)
    · exact hx
    · exact absurd hx (by simp)
  · exact fun hx => Or.inr (Or.inl hx)

end UnitGraph.Marked

/-! ## Main statement -/

namespace Merge

variable {digest : String → String}

theorem node_mem_gather_taken {a : Arbitration} {parts : List UnitGraph} {key : FunctionKey} :
    .node key ∈ gather parts (taken a) ↔ ∃ p ∈ parts, .node key ∈ p.graph.features :=
  exists_congr fun _ => and_congr_right fun _ => and_iff_left trivial

/-- The marks of a merged graph: those of the units, and those of the hierarchy of all classes for
functions that some unit has. -/
theorem virtual_mem_merged_iff {options : Options} {cancelled : Bool} {parts : List UnitGraph}
    {g : Graph} {stats : MergeStats} (hparts : ∀ p ∈ parts, p.graph.WellFormed)
    (hrun : (run digest options cancelled parts).2 = .ok (g, stats)) :
    ∃ h,
      Hierarchy.build (mergedFacts digest parts).classes (mergedFacts digest parts).functions =
        .ok h ∧
      ∀ key, (key, .virtual) ∈ g.traits ↔ ∃ p ∈ parts, .node key ∈ p.graph.features ∧
        (key ∈ h.virtuals ∨ (key, .virtual) ∈ p.graph.traits) := by
  obtain ⟨h, hbuild, hevolves⟩ := evolves_of_run hparts hrun
  refine ⟨h, hbuild, fun key => ?_⟩
  rw [hevolves.traits, traits_unionGraph _ (wellFormed_inOrder hparts)]
  constructor
  · rintro (⟨p, hp, hx, -⟩ | hx | ⟨hx, -⟩)
    · exact ⟨p, List.mem_mergeSort.mp hp, mem_keys_of_mem_traits hx, Or.inr hx⟩
    · obtain ⟨hv, hnode⟩ := VirtualCalls.virtual_mem_marked.mp hx
      obtain ⟨p, hp, hnode⟩ := node_mem_gather_taken.mp hnode
      exact ⟨p, List.mem_mergeSort.mp hp, hnode, Or.inl hv⟩
    · exact absurd hx (by simp)
  · rintro ⟨p, hp, hnode, hv | hx⟩
    · exact Or.inr (Or.inl (VirtualCalls.virtual_mem_marked.mpr
        ⟨hv, node_mem_gather_taken.mpr ⟨p, List.mem_mergeSort.mpr hp, hnode⟩⟩))
    · exact Or.inl ⟨p, List.mem_mergeSort.mpr hp, hx, by simp [KeepsTrait]⟩

/-- Which functions with override links are marked as virtual: in the graph of a unit those that its
records and direct calls name, and in a merged graph those that some unit has and that are virtual
for it or for all units together. -/
theorem linked_isVirtual_iff {options : Options} {cancelled : Bool}
    {units : List (Nat × TranslationUnit)} {parts : List UnitGraph}
    (hparts : UnitGraph.analyseIndexed options cancelled units = .ok parts) :
    (∀ p ∈ parts, ∀ f ∈ p.graph.nodes, f.Linked →
      (f.isVirtual = true ↔ p.unit.Names f.key)) ∧
    ∀ digest g stats, (run digest options cancelled parts).2 = .ok (g, stats) →
      ∃ h,
        Hierarchy.build (mergedFacts digest parts).classes (mergedFacts digest parts).functions =
          .ok h ∧
        ∀ f ∈ g.nodes, f.Linked → (f.isVirtual = true ↔
          ∃ p ∈ parts, .node f.key ∈ p.graph.features ∧
            (f.key ∈ h.virtuals ∨ (f.key, .virtual) ∈ p.graph.traits)) := by
  have hwell : ∀ p ∈ parts, p.graph.WellFormed := fun p => UnitGraph.wellFormed_of_mem hparts
  refine ⟨fun p hp f hf hlinked => ?_, fun digest g stats hrun => ?_⟩
  · obtain ⟨h, hbuild, hm⟩ := UnitGraph.marked_of_analyse (UnitGraph.analyse_of_mem hparts hp)
    have hnodup := (hwell p hp).nodup
    obtain ⟨t, ht, hhas⟩ := Function.linked_iff.mp hlinked
    have hv := hm.virtual_of_link hbuild ht ((has_iff_mem_traits hnodup hf).mp hhas)
    refine (has_iff_mem_traits hnodup hf (t := .virtual)).trans ?_
    rw [hm.virtual_iff hbuild, and_iff_right hv]
  · obtain ⟨h, hbuild, hvirtual⟩ := virtual_mem_merged_iff hwell hrun
    refine ⟨h, hbuild, fun f hf _ => ?_⟩
    exact (has_iff_mem_traits (wellFormed_of_run hwell hrun).nodup hf (t := .virtual)).trans
      (hvirtual f.key)

/-- Overriders of a virtual function, of which there are no records: one beside the class that it
overrides in, and one in a unit that does not know that class. -/
def unlistedOverriders : List (Nat × TranslationUnit) :=
  [(0, { name := "above"
         functions := [{ key := "A::f", isVirtual := true }]
         classes := [{ key := "A", methods := [⟨"f", "A::f"⟩] },
           { key := "C", bases := [{ className := "A" }], methods := [⟨"f", "C::f"⟩] }] }),
    (1, { name := "below"
          classes := [{ key := "B", bases := [{ className := "A" }]
                        methods := [⟨"f", "B::f"⟩] }] })]

/-- The overriders are linked but not marked, the first in the graph of its unit and the second in
the merged graph. -/
theorem unlistedOverriders_unmarked : ∃ p q g stats,
    UnitGraph.analyseIndexed {} false unlistedOverriders = .ok [p, q] ∧
    (run id {} false [p, q]).2 = .ok (g, stats) ∧
    (∃ f ∈ p.graph.nodes, f.key = "C::f" ∧ "A::f" ∈ f.overrides ∧ f.isVirtual = false) ∧
    ∃ f ∈ g.nodes, f.key = "B::f" ∧ "A::f" ∈ f.overrides ∧ f.isVirtual = false :=
  ⟨_, _, _, _, by cbv, by cbv, by decide, by decide⟩

theorem unlistedOverriders_named : ∃ p q g stats,
    UnitGraph.analyseIndexed {} false unlistedOverriders = .ok [p, q] ∧
    (run id {} false [p, q]).2 = .ok (g, stats) ∧ p.unit.Names "A::f" ∧ ¬ p.unit.Names "C::f" ∧
    .node "B::f" ∉ p.graph.features ∧ .node "B::f" ∉ q.graph.features := by
  obtain ⟨p, q, g, stats, hparts, hrun, ⟨base, hbase⟩, ⟨unmarked, hunmarked⟩, hnodes⟩ :
      ∃ p q g stats, UnitGraph.analyseIndexed {} false unlistedOverriders = .ok [p, q] ∧
      (run id {} false [p, q]).2 = .ok (g, stats) ∧
      (∃ f ∈ p.graph.nodes, f.key = "A::f" ∧ "C::f" ∈ f.overriddenBy ∧ f.isVirtual = true) ∧
      (∃ f ∈ p.graph.nodes, f.key = "C::f" ∧ "A::f" ∈ f.overrides ∧ f.isVirtual = false) ∧
      "B::f" ∉ p.graph.keys ∧ "B::f" ∉ q.graph.keys :=
    ⟨_, _, _, _, by cbv, by cbv, by decide, by decide, by decide, by decide⟩
  obtain ⟨hunit, -⟩ := linked_isVirtual_iff hparts
  refine ⟨p, q, g, stats, hparts, hrun, ?_, ?_, hnodes⟩
  · have hiff := hunit p List.mem_cons_self base hbase.1 (Or.inr ⟨_, hbase.2.2.1⟩)
    exact hbase.2.1 ▸ hiff.mp hbase.2.2.2
  · have hiff := hunit p List.mem_cons_self unmarked hunmarked.1 (Or.inl ⟨_, hunmarked.2.2.1⟩)
    rw [← hunmarked.2.1, ← hiff, hunmarked.2.2.2]
    simp

end Merge

end CallGraphs
