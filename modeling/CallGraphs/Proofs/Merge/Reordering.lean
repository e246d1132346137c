import CallGraphs.Data.Results
import CallGraphs.Proofs.Analysis.Reordering
import CallGraphs.Proofs.Analysis.Success
import CallGraphs.Proofs.Graph.Sorting
import CallGraphs.Proofs.Merge.Arbitration
import CallGraphs.Proofs.Merge.Sites
import Mathlib

/-!
# Units in another order

Much depends on which unit comes first: node numbers, the order of classes and
slots, the record of a class that others are joined to, the definition that is
kept.  None of it shows in the edges and flags of the merged graph, as long as
there is nothing to arbitrate (`Merge.order_irrelevant`): definitions of one
function have one fingerprint, records of one class are the same, and every
member function is listed by one class.

A unit comes to the same graph wherever it stands.  So a reordered list gives the
same graphs under other indices (`UnitGraph.Rearranged`).  No definition is
excluded in either order, so the merges take over the same features and resolve
the same facts, and whether the resolution ends in time depends on the facts only
(`PointerCalls.exists_run_iff`).
-/

namespace CallGraphs

open CallGraphs.Graph

/-! ## Units one by one -/

namespace UnitGraph

variable {options : Options} {cancelled : Bool} {units units' : List TranslationUnit}
  {parts parts' : List UnitGraph}

/-- The index of a unit is written down and not used. -/
theorem analyse_eq_map (options : Options) (cancelled : Bool) (index : Nat) (u : TranslationUnit) :
    analyse options cancelled index u =
      (analyse options cancelled 0 u).map fun p => { p with index := index } := by
  simp only [analyse]
  split
  · rfl
  · split
    · rfl
    · split
      · rfl
      · rfl

theorem graph_eq_of_analyse {i j : Nat} {u : TranslationUnit} {p q : UnitGraph}
    (hp : analyse options cancelled i u = .ok p) (hq : analyse options cancelled j u = .ok q) :
    p.graph = q.graph := by
  rw [analyse_eq_map] at hp hq
  cases h : analyse options cancelled 0 u with
  | error e =>
      rw [h] at hp
      exact absurd hp (by simp [Except.map])
  | ok r =>
      rw [h] at hp hq
      obtain rfl := Except.ok.inj hp
      obtain rfl := Except.ok.inj hq
      rfl

/-- Units under their positions. -/
def indexed (units : List TranslationUnit) : List (Nat × TranslationUnit) :=
  units.zipIdx.map Prod.swap

theorem analyseAll_eq (hgo : cancelled = false) :
    (analyseAll options cancelled units).2 =
      analyseIndexed options cancelled (indexed units) := by
  rw [analyseAll, if_neg (by simp [hgo]), analyseIndexed, indexed, List.mapM_map]
  dsimp only
  split
  · next failure h => exact h.symm
  · next graphs h => exact h.symm

theorem not_cancelled_of_analyseAll (h : (analyseAll options cancelled units).2 = .ok parts) :
    cancelled = false := by
  cases hc : cancelled with
  | false => rfl
  | true =>
      rw [analyseAll, if_pos hc] at h
      exact absurd h (by simp)

theorem exists_analyse_iff (index : Nat) {u : TranslationUnit} :
    (∃ p, analyse options cancelled index u = .ok p) ↔
      ∃ p, analyse options cancelled 0 u = .ok p := by
  rw [analyse_eq_map]
  cases analyse options cancelled 0 u with
  | error e => simp [Except.map]
  | ok p => simp [Except.map]

theorem map_snd_indexed (units : List TranslationUnit) : (indexed units).map (·.2) = units := by
  rw [indexed, List.map_map]
  exact List.zipIdx_map_fst 0 units

/-- All units are analysed if each of them can be. -/
theorem exists_analyseAll_iff : (∃ parts, (analyseAll options cancelled units).2 = .ok parts) ↔
    cancelled = false ∧ ∀ u ∈ units, ∃ p, analyse options cancelled 0 u = .ok p := by
  have hindexed : (∃ parts, analyseIndexed options cancelled (indexed units) = .ok parts) ↔
      ∀ u ∈ units, ∃ p, analyse options cancelled 0 u = .ok p := by
    rw [analyseIndexed, exists_mapM_iff]
    nth_rewrite 2 [← map_snd_indexed units]
    rw [List.forall_mem_map]
    exact forall₂_congr fun unit _ => exists_analyse_iff unit.1
  constructor
  · rintro ⟨parts, h⟩
    have hgo := not_cancelled_of_analyseAll h
    rw [analyseAll_eq hgo] at h
    exact ⟨hgo, hindexed.mp ⟨parts, h⟩⟩
  · rintro ⟨hgo, hall⟩
    rw [analyseAll_eq hgo]
    exact hindexed.mpr hall

theorem analyseIndexed_of_analyseAll (h : (analyseAll options cancelled units).2 = .ok parts) :
    analyseIndexed options cancelled (indexed units) = .ok parts := by
  rw [← analyseAll_eq (not_cancelled_of_analyseAll h), h]

theorem map_unit_of_analyseAll (h : (analyseAll options cancelled units).2 = .ok parts) :
    parts.map (·.unit) = units := by
  have hmap := map_of_analysed (analysed_of_analyseIndexed (analyseIndexed_of_analyseAll h))
  rw [← map_snd_indexed units, ← hmap, List.map_map]
  rfl

/-- Two lists have the same units with the same graphs, under whatever indices. -/
structure Rearranged (parts parts' : List UnitGraph) : Prop where
  forth : ∀ p ∈ parts, ∃ q ∈ parts', q.unit = p.unit ∧ q.graph = p.graph
  back : ∀ q ∈ parts', ∃ p ∈ parts, p.unit = q.unit ∧ p.graph = q.graph

theorem exists_same_of_analyseAll (h : (analyseAll options cancelled units).2 = .ok parts)
    (h' : (analyseAll options cancelled units').2 = .ok parts')
    (hsub : units ⊆ units') {p : UnitGraph} (hp : p ∈ parts) :
    ∃ q ∈ parts', q.unit = p.unit ∧ q.graph = p.graph := by
  have hmem : p.unit ∈ units' := by
    refine hsub ?_
    rw [← map_unit_of_analyseAll h]
    exact List.mem_map_of_mem hp
  rw [← map_unit_of_analyseAll h'] at hmem
  obtain ⟨q, hq, hunit⟩ := List.mem_map.mp hmem
  have hp' := analyse_of_mem (analyseIndexed_of_analyseAll h) hp
  have hq' := analyse_of_mem (analyseIndexed_of_analyseAll h') hq
  rw [hunit] at hq'
  exact ⟨q, hq, hunit, graph_eq_of_analyse hq' hp'⟩

theorem rearranged_of_perm (hperm : units.Perm units')
    (h : (analyseAll options cancelled units).2 = .ok parts)
    (h' : (analyseAll options cancelled units').2 = .ok parts') : Rearranged parts parts' := by
  constructor
  · intro p hp
    exact exists_same_of_analyseAll h h' hperm.subset hp
  · intro q hq
    exact exists_same_of_analyseAll h' h hperm.symm.subset hq

end UnitGraph

namespace Merge

variable {digest : String → String}

/-! ## Nothing to arbitrate -/

/-- All definitions of a function have the same fingerprint. -/
def DefinitionsAgree (digest : String → String) (units : List TranslationUnit) : Prop :=
  ∀ u ∈ units, ∀ r ∈ u.functions, ∀ u' ∈ units, ∀ r' ∈ u'.functions,
    r.defined = true → r'.defined = true → r.key = r'.key →
      Fingerprint.of digest u r = .of digest u' r'

instance (digest : String → String) (units : List TranslationUnit) :
    Decidable (DefinitionsAgree digest units) :=
  inferInstanceAs (Decidable (∀ u ∈ units, ∀ r ∈ u.functions, ∀ u' ∈ units, ∀ r' ∈ u'.functions,
    r.defined = true → r'.defined = true → r.key = r'.key →
      Fingerprint.of digest u r = .of digest u' r'))

/-- Nothing is there to arbitrate between units. -/
structure Compatible (digest : String → String) (units : List TranslationUnit) : Prop where
  definitions : DefinitionsAgree digest units
  records : RecordsAgree (units.flatMap (·.classes))
  members : Hierarchy.ListedByOneClass (units.flatMap (·.classes))

theorem Compatible.congr {us us' : List TranslationUnit} (hmem : ∀ u, u ∈ us ↔ u ∈ us')
    (h : Compatible digest us) : Compatible digest us' := by
  have hclasses : us'.flatMap (·.classes) ⊆ us.flatMap (·.classes) := by
    intro c hc
    simpa only [List.mem_flatMap, hmem] using hc
  refine ⟨?_, h.records.subset hclasses, h.members.subset hclasses⟩
  intro u hu r hr u' hu'
  exact h.definitions u ((hmem u).mpr hu) r hr u' ((hmem u').mpr hu')

theorem mem_functions_of_mem_definitions {rs : List FunctionRecord} {r : FunctionRecord}
    (h : r ∈ Arbitration.definitions rs) : r ∈ rs ∧ r.defined = true := by
  have hfind := Arbitration.mem_definitions_iff.mp h
  have hdefined := List.find?_some hfind
  rw [Bool.and_eq_true] at hdefined
  exact ⟨List.mem_of_find?_eq_some hfind, hdefined.1⟩

theorem excluded_eq_nil {units : List UnitGraph}
    (hagree : DefinitionsAgree digest (units.map (·.unit))) :
    (Arbitration.ofUnits digest units).excluded = [] := by
  refine List.eq_nil_iff_forall_not_mem.mpr ?_
  rintro ⟨i, key⟩ hexcluded
  obtain ⟨e, he, -, hkey, first, hfirst, hdiffers⟩ :=
    ((Arbitration.judged_ofUnits units).excluded i key).mp hexcluded
  have hfirstKey : first.2.key = key := by simpa using List.find?_some hfirst
  obtain ⟨hp, hr⟩ := Arbitration.mem_entries_iff.mp he
  obtain ⟨hq, hs⟩ := Arbitration.mem_entries_iff.mp (List.mem_of_find?_eq_some hfirst)
  obtain ⟨hr, hdefined⟩ := mem_functions_of_mem_definitions hr
  obtain ⟨hs, hdefined'⟩ := mem_functions_of_mem_definitions hs
  exact hdiffers (hagree _ (List.mem_map_of_mem hq) _ hs _ (List.mem_map_of_mem hp) _ hr hdefined'
    hdefined (hfirstKey.trans hkey.symm))

/-! ## What is merged -/

section Rearranged

variable {parts parts' : List UnitGraph} (hr : UnitGraph.Rearranged parts parts')

include hr in
theorem exists_mem_inOrder_iff {P Q : UnitGraph → Prop}
    (hPQ : ∀ p q, q.unit = p.unit → q.graph = p.graph → (P p ↔ Q q)) :
    (∃ p ∈ inOrder parts, P p) ↔ ∃ q ∈ inOrder parts', Q q := by
  simp only [inOrder, List.mem_mergeSort]
  constructor
  · rintro ⟨p, hp, h⟩
    obtain ⟨q, hq, hunit, hgraph⟩ := hr.forth p hp
    exact ⟨q, hq, (hPQ p q hunit hgraph).mp h⟩
  · rintro ⟨q, hq, h⟩
    obtain ⟨p, hp, hunit, hgraph⟩ := hr.back q hq
    exact ⟨p, hp, (hPQ p q hunit.symm hgraph.symm).mpr h⟩

include hr in
theorem mem_units_iff (u : TranslationUnit) :
    u ∈ (inOrder parts).map (·.unit) ↔ u ∈ (inOrder parts').map (·.unit) := by
  rw [List.mem_map, List.mem_map]
  refine exists_mem_inOrder_iff hr fun p q hunit _ => ?_
  rw [hunit]

/-- Only which units there are matters to what they say together. -/
theorem joinFacts_alike {us us' : List TranslationUnit} (hmem : ∀ u, u ∈ us ↔ u ∈ us') :
    (joinFacts us).Alike (joinFacts us') := by
  constructor <;>
  · intro x
    simp only [joinFacts, List.mem_flatMap, hmem]

variable {a a' : Arbitration} (ha : a.excluded = []) (ha' : a'.excluded = [])
include hr ha ha'

theorem gather_taken_eq :
    gather (inOrder parts) (taken a) = gather (inOrder parts') (taken a') := by
  ext x
  refine exists_mem_inOrder_iff hr fun p q _ hgraph => ?_
  simp only [taken, hgraph]
  refine and_congr_right fun _ => ?_
  cases x with
  | node key => exact Iff.rfl
  | body key => simp [Keeps, excludes_of_excluded_eq_nil ha, excludes_of_excluded_eq_nil ha']
  | call caller callee kind confidence =>
      simp [Keeps, keepsCall, excludes_of_excluded_eq_nil ha, excludes_of_excluded_eq_nil ha']

theorem takenTraits_eq : {x | ∃ p ∈ inOrder parts, x ∈ takenTraits a p} =
    {x | ∃ p ∈ inOrder parts', x ∈ takenTraits a' p} := by
  ext x
  refine exists_mem_inOrder_iff hr fun p q _ hgraph => ?_
  simp only [takenTraits, hgraph, KeepsTrait, excludes_of_excluded_eq_nil ha,
    excludes_of_excluded_eq_nil ha']

end Rearranged

/-- Two merges start from the same: the same facts, and graphs that show the same and know the same
of their functions. -/
structure StartAlike (digest : String → String) (parts parts' : List UnitGraph) : Prop where
  facts : (mergedFacts digest parts).Alike (mergedFacts digest parts')
  features : gather (inOrder parts) (taken (.ofUnits digest (inOrder parts))) =
    gather (inOrder parts') (taken (.ofUnits digest (inOrder parts')))
  traits : {x | ∃ p ∈ inOrder parts, x ∈ takenTraits (.ofUnits digest (inOrder parts)) p} =
    {x | ∃ p ∈ inOrder parts', x ∈ takenTraits (.ofUnits digest (inOrder parts')) p}

theorem startAlike_of_rearranged {parts parts' : List UnitGraph}
    (hr : UnitGraph.Rearranged parts parts')
    (hagree : DefinitionsAgree digest ((inOrder parts).map (·.unit)))
    (hagree' : DefinitionsAgree digest ((inOrder parts').map (·.unit))) :
    StartAlike digest parts parts' := by
  have hexcluded := excluded_eq_nil hagree
  have hexcluded' := excluded_eq_nil hagree'
  refine ⟨?_, gather_taken_eq hr hexcluded hexcluded', takenTraits_eq hr hexcluded hexcluded'⟩
  rw [mergedFacts, mergedFacts, facts_of_excluded_eq_nil hexcluded,
    facts_of_excluded_eq_nil hexcluded']
  exact joinFacts_alike (mem_units_iff hr)

theorem StartAlike.symm {parts parts' : List UnitGraph} (hs : StartAlike digest parts parts') :
    StartAlike digest parts' parts :=
  ⟨hs.facts.symm, hs.features.symm, hs.traits.symm⟩

/-- Classes are never excluded. -/
theorem classes_mergedFacts (digest : String → String) (parts : List UnitGraph) :
    (mergedFacts digest parts).classes = ((inOrder parts).map (·.unit)).flatMap (·.classes) := by
  show ((inOrder parts).map (keptFacts (.ofUnits digest (inOrder parts)))).flatMap (·.classes) = _
  rw [List.flatMap_map, List.flatMap_map]
  rfl

theorem Compatible.classes {parts : List UnitGraph}
    (hc : Compatible digest ((inOrder parts).map (·.unit))) :
    RecordsAgree (mergedFacts digest parts).classes ∧
      Hierarchy.ListedByOneClass (mergedFacts digest parts).classes := by
  rw [classes_mergedFacts]
  exact ⟨hc.records, hc.members⟩

/-! ## Success -/

/-- Facts are resolved exactly if no class derives from itself and the pointer flow ends in time. -/
theorem exists_resolve_iff {options : Options} {u : TranslationUnit} {g : Graph}
    (hg : g.WellFormed) : (∃ result, resolve options u g = .ok result) ↔
      ∃ h, Hierarchy.build u.classes u.functions = .ok h ∧
        PointerCalls.EndsWithin options.maxIterations (PointerCalls.asked h options.returnFlow u
          (g.features ∪ VirtualCalls.added h u ∪ PointerCalls.referred h u)) := by
  simp only [resolve]
  cases hbuild : Hierarchy.build u.classes u.functions with
  | error key => simp [VirtualCalls.run, hbuild]
  | ok h =>
      obtain ⟨g₁, stats, hvirtual⟩ : ∃ g₁ stats,
          VirtualCalls.run { unit := u.name, isGlobal := true } u g = .ok (g₁, h, stats) := by
        rw [VirtualCalls.run, hbuild]
        exact ⟨_, _, rfl⟩
      have hadds := (VirtualCalls.adds_run _ hg hvirtual).2
      have hpointers := PointerCalls.exists_run_iff { unit := u.name, isGlobal := true } options
        hadds.wellFormed (h := h) (u := u)
      rw [hadds.features] at hpointers
      simp only [Except.ok.injEq, exists_eq_left', ← hpointers, hvirtual]
      constructor
      · rintro ⟨result, hresult⟩
        split at hresult
        · exact absurd hresult (by simp)
        · next g₂ flow hrun => exact ⟨g₂, flow, hrun⟩
      · rintro ⟨g₂, flow, hrun⟩
        rw [hrun]
        exact ⟨_, rfl⟩

/-- A merge comes to a graph exactly if the facts of all units are resolved to it. -/
theorem exists_stats_iff {options : Options} {cancelled : Bool} {parts : List UnitGraph}
    {g : Graph} : (∃ stats, (run digest options cancelled parts).2 = .ok (g, stats)) ↔
      cancelled = false ∧ ∃ flow, resolve options (mergedFacts digest parts)
        (unionGraph (.ofUnits digest (inOrder parts)) (inOrder parts)) = .ok (g, flow) := by
  cases cancelled with
  | true => simp [run]
  | false =>
      rw [and_iff_right rfl]
      simp only [run, Bool.false_eq_true, if_false, mergedFacts, inOrder]
      constructor
      · rintro ⟨stats, hstats⟩
        split at hstats
        · exact absurd hstats (by simp)
        · next g' flow hresolve =>
          obtain ⟨rfl, -⟩ := Prod.mk.inj (Except.ok.inj hstats)
          exact ⟨flow, hresolve⟩
      · rintro ⟨flow, hresolve⟩
        rw [hresolve]
        exact ⟨_, rfl⟩

theorem exists_run_iff {options : Options} {cancelled : Bool} {parts : List UnitGraph} :
    (∃ result, (run digest options cancelled parts).2 = .ok result) ↔ cancelled = false ∧
      ∃ result, resolve options (mergedFacts digest parts)
        (unionGraph (.ofUnits digest (inOrder parts)) (inOrder parts)) = .ok result := by
  simp only [Prod.exists, exists_stats_iff, exists_and_left]

/-! ## Edges -/

theorem distinctEdges_foldl_joinFunction {a : Arbitration} {index : Nat} (fs : List Function)
    {g : Graph} (hg : g.DistinctEdges) : (fs.foldl (joinFunction a index) g).DistinctEdges := by
  induction fs generalizing g with
  | nil => exact hg
  | cons f fs ih => exact ih (distinctEdges_addFunction hg _)

theorem distinctEdges_foldl_absorb {a : Arbitration} {units : List UnitGraph}
    (hunits : ∀ p ∈ units, p.graph.WellFormed) {g : Graph} (hg : g.WellFormed)
    (hd : g.DistinctEdges) : (units.foldl (absorb a) g).DistinctEdges := by
  induction units generalizing g with
  | nil => exact hd
  | cons p units ih =>
      have hp := hunits p List.mem_cons_self
      refine ih (fun q hq => hunits q (List.mem_cons_of_mem _ hq))
        (adds_absorb a hg hp).wellFormed ?_
      rw [absorb_eq_joinUnit a hp]
      exact (evolves_takeRest a hp (covers_foldl_joinFunction a hg p)).distinct
        (distinctEdges_foldl_joinFunction _ hd)

/-- A merged graph has no edge twice. -/
theorem distinctEdges_of_run {options : Options} {cancelled : Bool} {parts : List UnitGraph}
    {g : Graph} {stats : MergeStats} (hparts : ∀ p ∈ parts, p.graph.WellFormed)
    (hrun : (run digest options cancelled parts).2 = .ok (g, stats)) : g.DistinctEdges := by
  obtain ⟨h, -, hevolves⟩ := evolves_of_run hparts hrun
  refine hevolves.distinct ((evolves_conflicts _ _).distinct ?_)
  exact distinctEdges_foldl_absorb (wellFormed_inOrder hparts) wellFormed_empty List.nodup_nil

/-! ## Main statement -/

section Both

variable {options : Options} {cancelled : Bool} {parts parts' : List UnitGraph}
  (hs : StartAlike digest parts parts') (hrecords : RecordsAgree (mergedFacts digest parts).classes)
  (hmembers : Hierarchy.ListedByOneClass (mergedFacts digest parts).classes)
  (hwell : ∀ p ∈ parts, p.graph.WellFormed) (hwell' : ∀ p ∈ parts', p.graph.WellFormed)
include hs hrecords hmembers hwell hwell'

/-- Merges that start from the same succeed together. -/
theorem exists_run_of_startAlike
    (hrun : ∃ result, (run digest options cancelled parts).2 = .ok result) :
    ∃ result, (run digest options cancelled parts').2 = .ok result := by
  have hunion := adds_unionGraph (.ofUnits digest (inOrder parts)) (wellFormed_inOrder hwell)
  have hunion' := adds_unionGraph (.ofUnits digest (inOrder parts')) (wellFormed_inOrder hwell')
  obtain ⟨hgo, hresolve⟩ := exists_run_iff.mp hrun
  refine exists_run_iff.mpr ⟨hgo, ?_⟩
  rw [exists_resolve_iff hunion.wellFormed,
    features_unionGraph _ (wellFormed_inOrder hwell)] at hresolve
  rw [exists_resolve_iff hunion'.wellFormed, features_unionGraph _ (wellFormed_inOrder hwell')]
  obtain ⟨h, hbuild, hends⟩ := hresolve
  obtain ⟨h', hbuild'⟩ := Hierarchy.exists_build_of_subset (fun c => (hs.facts.classes c).mpr)
    hrecords ⟨h, hbuild⟩
  have ha := Hierarchy.alike_of_build hbuild hbuild' hs.facts.classes hs.facts.functions hrecords
    hmembers
  refine ⟨h', hbuild', ?_⟩
  rw [← hs.features, ← VirtualCalls.added_eq ha hs.facts, ← PointerCalls.referred_eq ha hs.facts,
    ← PointerCalls.asked_eq ha hs.facts]
  exact hends

/-- Merges that start from the same come to the same. -/
theorem same_of_startAlike {g g' : Graph} {stats stats' : MergeStats}
    (hrun : (run digest options cancelled parts).2 = .ok (g, stats))
    (hrun' : (run digest options cancelled parts').2 = .ok (g', stats')) :
    g.features = g'.features ∧ g.traits = g'.traits := by
  constructor
  · have hresolved := exists_resolution_of_run hwell hrun
    rw [hs.features] at hresolved
    obtain ⟨r, hfeatures⟩ := hresolved
    obtain ⟨r', hfeatures'⟩ := exists_resolution_of_run hwell' hrun'
    rw [hfeatures, hfeatures']
    exact r.features_eq r' hs.facts (r.hierarchy_alike r' hs.facts hrecords hmembers)
  · obtain ⟨h, hbuild, hevolves⟩ := evolves_of_run hwell hrun
    obtain ⟨h', hbuild', hevolves'⟩ := evolves_of_run hwell' hrun'
    have ha := Hierarchy.alike_of_build hbuild hbuild' hs.facts.classes hs.facts.functions hrecords
      hmembers
    have hlambdas := PointerCalls.lambdas_eq ha hs.facts
    rw [mergedFacts, mergedFacts] at hlambdas
    rw [hevolves.traits, hevolves'.traits, traits_unionGraph _ (wellFormed_inOrder hwell),
      traits_unionGraph _ (wellFormed_inOrder hwell'), hs.traits, hs.features,
      VirtualCalls.marked_eq ha, hlambdas]

/-- Merges that start from the same fail together or list the same. -/
theorem both_of_startAlike :
    (∃ failure failure', (run digest options cancelled parts).2 = .error failure ∧
      (run digest options cancelled parts').2 = .error failure') ∨
    ∃ g stats g' stats', (run digest options cancelled parts).2 = .ok (g, stats) ∧
      (run digest options cancelled parts').2 = .ok (g', stats') ∧
      g.sortedCalls = g'.sortedCalls ∧ g.sortedOutlines = g'.sortedOutlines := by
  cases hrun : (run digest options cancelled parts).2 with
  | error failure =>
      cases hrun' : (run digest options cancelled parts').2 with
      | error failure' => exact Or.inl ⟨failure, failure', rfl, rfl⟩
      | ok result =>
          have hsub : (mergedFacts digest parts').classes ⊆ (mergedFacts digest parts).classes :=
            fun c => (hs.facts.classes c).mpr
          obtain ⟨result, hok⟩ := exists_run_of_startAlike hs.symm (hrecords.subset hsub)
            (hmembers.subset hsub) hwell' hwell ⟨result, hrun'⟩
          exact absurd (hrun.symm.trans hok) (by simp)
  | ok result =>
      obtain ⟨result', hrun'⟩ := exists_run_of_startAlike hs hrecords hmembers hwell hwell'
        ⟨result, hrun⟩
      obtain ⟨hfeatures, htraits⟩ := same_of_startAlike hs hrecords hmembers hwell hwell' hrun hrun'
      have hg := wellFormed_of_run hwell hrun
      have hg' := wellFormed_of_run hwell' hrun'
      refine Or.inr ⟨_, _, _, _, rfl, hrun', ?_, ?_⟩
      · exact sortedCalls_eq hg hg' (distinctEdges_of_run hwell hrun)
          (distinctEdges_of_run hwell' hrun') hfeatures
      · exact sortedOutlines_eq hg.nodup hg'.nodup hfeatures htraits

end Both

/-- Units are analysed one by one, each under its position, and merged. -/
def analyseAndMerge (digest : String → String) (options : Options) (cancelled : Bool)
    (units : List TranslationUnit) : Except Failure (Graph × MergeStats) := do
  let parts ← (UnitGraph.analyseAll options cancelled units).2
  (run digest options cancelled parts).2

theorem analyseAndMerge_of_ok {options : Options} {cancelled : Bool} {units : List TranslationUnit}
    {parts : List UnitGraph} (h : (UnitGraph.analyseAll options cancelled units).2 = .ok parts) :
    analyseAndMerge digest options cancelled units = (run digest options cancelled parts).2 := by
  rw [analyseAndMerge, h]
  rfl

theorem mem_units_of_analyseAll {options : Options} {cancelled : Bool}
    {units : List TranslationUnit} {parts : List UnitGraph}
    (h : (UnitGraph.analyseAll options cancelled units).2 = .ok parts) (u : TranslationUnit) :
    u ∈ units ↔ u ∈ (inOrder parts).map (·.unit) := by
  rw [← UnitGraph.map_unit_of_analyseAll h, inOrder]
  simp only [List.mem_map, List.mem_mergeSort]

/-- If there is nothing to arbitrate, the order of the units does not matter.  Either the analysis
fails in both orders, or it succeeds in both, with the same edges, and with the same functions up to
their readable names, their signatures and the units that they come from. -/
theorem order_irrelevant {options : Options} {cancelled : Bool}
    {units units' : List TranslationUnit} (hc : Compatible digest units)
    (hperm : units.Perm units') :
    (∃ failure failure', analyseAndMerge digest options cancelled units = .error failure ∧
      analyseAndMerge digest options cancelled units' = .error failure') ∨
    ∃ g stats g' stats', analyseAndMerge digest options cancelled units = .ok (g, stats) ∧
      analyseAndMerge digest options cancelled units' = .ok (g', stats') ∧
      g.sortedCalls = g'.sortedCalls ∧ g.sortedOutlines = g'.sortedOutlines := by
  have hanalysed : (∃ parts, (UnitGraph.analyseAll options cancelled units).2 = .ok parts) ↔
      ∃ parts, (UnitGraph.analyseAll options cancelled units').2 = .ok parts := by
    simp only [UnitGraph.exists_analyseAll_iff, hperm.mem_iff]
  cases h : (UnitGraph.analyseAll options cancelled units).2 with
  | error failure =>
      cases h' : (UnitGraph.analyseAll options cancelled units').2 with
      | error failure' =>
          refine Or.inl ⟨failure, failure', ?_, ?_⟩
          · rw [analyseAndMerge, h]
            rfl
          · rw [analyseAndMerge, h']
            rfl
      | ok parts' =>
          obtain ⟨parts, hparts⟩ := hanalysed.mpr ⟨parts', h'⟩
          exact absurd (h.symm.trans hparts) (by simp)
  | ok parts =>
      obtain ⟨parts', h'⟩ := hanalysed.mp ⟨parts, h⟩
      have hr := UnitGraph.rearranged_of_perm hperm h h'
      have hc := hc.congr (mem_units_of_analyseAll h)
      have hc' := hc.congr (mem_units_iff hr)
      have hs := startAlike_of_rearranged hr hc.definitions hc'.definitions
      have hwell : ∀ p ∈ parts, p.graph.WellFormed := fun p hp =>
        UnitGraph.wellFormed_of_mem (UnitGraph.analyseIndexed_of_analyseAll h) hp
      have hwell' : ∀ p ∈ parts', p.graph.WellFormed := fun p hp =>
        UnitGraph.wellFormed_of_mem (UnitGraph.analyseIndexed_of_analyseAll h') hp
      rw [analyseAndMerge_of_ok h, analyseAndMerge_of_ok h']
      exact both_of_startAlike hs hc.classes.1 hc.classes.2 hwell hwell'

/-- Two units that know a class and define its method, one of which derives from it. -/
def sharedBase : List TranslationUnit :=
  [{ name := "base"
     functions := [{ key := "A::f", defined := true, isVirtual := true, bodyHash := some "a" }]
     classes := [{ key := "A", methods := [⟨"f", "A::f"⟩] }] },
    { name := "user"
      functions := [{ key := "main", defined := true },
        { key := "A::f", defined := true, isVirtual := true, bodyHash := some "a" },
        { key := "B::f", defined := true }]
      classes := [{ key := "B", bases := [{ className := "A" }], methods := [⟨"f", "B::f"⟩] },
        { key := "A", methods := [⟨"f", "A::f"⟩] }]
      callSites := [{ caller := "main", target := .virtual "A" "f" }] }]

/-- The order of the units shows in the node numbers, but not in the edges and flags. -/
theorem sharedBase_reversed : ∃ g stats g' stats', Compatible id sharedBase ∧
    analyseAndMerge id {} false sharedBase = .ok (g, stats) ∧
    analyseAndMerge id {} false sharedBase.reverse = .ok (g', stats') ∧ g.keys ≠ g'.keys ∧
    g.sortedCalls = g'.sortedCalls ∧ g.sortedOutlines = g'.sortedOutlines := by
  obtain ⟨g, stats, g', stats', hok, hok', hkeys⟩ : ∃ g stats g' stats',
      analyseAndMerge id {} false sharedBase = .ok (g, stats) ∧
      analyseAndMerge id {} false sharedBase.reverse = .ok (g', stats') ∧ g.keys ≠ g'.keys :=
    ⟨_, _, _, _, by cbv, by cbv, by decide⟩
  have hc : Compatible id sharedBase := ⟨by decide +kernel, by decide, by decide⟩
  refine ⟨g, stats, g', stats', hc, hok, hok', hkeys, ?_⟩
  rcases @order_irrelevant id {} false _ _ hc (List.reverse_perm sharedBase).symm with
    ⟨failure, failure', hfails, -⟩ | ⟨_, _, _, _, hruns, hruns', hsame⟩
  · exact absurd (hok.symm.trans hfails) (by simp)
  · obtain ⟨rfl, -⟩ := Prod.mk.inj (Except.ok.inj (hok.symm.trans hruns))
    obtain ⟨rfl, -⟩ := Prod.mk.inj (Except.ok.inj (hok'.symm.trans hruns'))
    exact hsame

end Merge

end CallGraphs
