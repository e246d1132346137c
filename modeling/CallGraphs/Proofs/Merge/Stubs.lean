import CallGraphs.Proofs.Analysis.Stubs
import CallGraphs.Proofs.Merge.Sites
import CallGraphs.Proofs.Merge.Virtuality
import Mathlib

/-!
# Stubs of a merged graph

The passes over all units report no malformed fact: the units have been through
the facts, and have reported what they met.  So a merged graph explains what
the graphs of the units explain (`explains_merged_iff`), and that is every stub
that some unit has.

But facts of several units together lead to functions that no unit meets.  A
pointer that one unit sets and another one calls through gives the call a
target, and with it the caller a node; classes that are put together give
dispatch and deletion more candidates.  If there is no record of such a
function it comes in as a stub of which nothing is said, unless an override link
has brought it in as a declaration before (`stubs_merged_iff`).
-/

namespace CallGraphs

namespace Merge

open CallGraphs.Graph

variable {digest : String → String} {options : Options} {cancelled : Bool} {a : Arbitration}
  {parts : List UnitGraph} {g : Graph} {stats : MergeStats}

/-! ## Malformed facts -/

theorem diagnostics_joinFunction (index : Nat) (g : Graph) (f : Function) :
    (joinFunction a index g f).diagnostics = g.diagnostics := by
  rw [joinFunction, addFunction]
  split <;> rfl

theorem diagnostics_joinCall (index : Nat) (g : Graph) (c : Call) :
    (joinCall a index g c).diagnostics = g.diagnostics := by
  have hensure (g : Graph) (key : FunctionKey) :
      (g.ensureNode key).1.diagnostics = g.diagnostics := by
    rw [ensureNode]
    split
    · rfl
    · rw [addFunction]
      split <;> rfl
  rw [joinCall]
  split
  · rw [addCall]
    simp only [insertEdge]
    split <;> simp [hensure]
  · rfl

theorem mem_takeDiagnostic {d d' : Diagnostic} (hfact : d'.IsMalformedFact) :
    d' ∈ (takeDiagnostic g d).diagnostics ↔ d' ∈ g.diagnostics ∨ d' = d := by
  rw [takeDiagnostic]
  split
  · next hcall =>
    refine (or_iff_left ?_).symm
    rintro rfl
    obtain ⟨detail, hdetail⟩ := hfact
    rw [Diagnostic.isUnresolvedCall, hdetail] at hcall
    exact absurd hcall (by simp)
  · exact mem_diagnostics_addDiagnostic

/-- What a fold over a list brings, if each step brings its element. -/
theorem mem_foldl_iff {α : Type} {brings : α → Prop} {d : Diagnostic} (step : Graph → α → Graph)
    (hstep : ∀ g x, d ∈ (step g x).diagnostics ↔ d ∈ g.diagnostics ∨ brings x) (l : List α)
    (g : Graph) : d ∈ (l.foldl step g).diagnostics ↔ d ∈ g.diagnostics ∨ ∃ x ∈ l, brings x := by
  induction l generalizing g with
  | nil => simp
  | cons x l ih => simp [ih, hstep, or_assoc]

theorem mem_joinUnit {d : Diagnostic} (hfact : d.IsMalformedFact) (g : Graph) (p : UnitGraph) :
    d ∈ (joinUnit a g p).diagnostics ↔ d ∈ g.diagnostics ∨ d ∈ p.graph.diagnostics := by
  have hfunctions (g : Graph) (f : Function) : d ∈ (joinFunction a p.index g f).diagnostics ↔
      d ∈ g.diagnostics ∨ False := by
    rw [diagnostics_joinFunction, or_false]
  have hcalls (g : Graph) (c : Call) : d ∈ (joinCall a p.index g c).diagnostics ↔
      d ∈ g.diagnostics ∨ False := by
    rw [diagnostics_joinCall, or_false]
  rw [joinUnit, mem_foldl_iff takeDiagnostic (fun g d' => mem_takeDiagnostic hfact),
    mem_foldl_iff _ hcalls, mem_foldl_iff _ hfunctions]
  simp

/-- The malformed facts of the union of the graphs are those of the units. -/
theorem mem_unionGraph (hparts : ∀ p ∈ parts, p.graph.WellFormed) {d : Diagnostic}
    (hfact : d.IsMalformedFact) :
    d ∈ (unionGraph (.ofUnits digest parts) parts).diagnostics ↔
      ∃ p ∈ parts, d ∈ p.graph.diagnostics := by
  have hconflict : ∀ d' ∈ (Arbitration.ofUnits digest parts).conflicts, d ≠ d' := by
    rintro d' hd' rfl
    obtain ⟨f, kept, dropped, rfl⟩ := reportsConflicts_ofUnits parts d hd'
    obtain ⟨detail, hdetail⟩ := hfact
    exact absurd hdetail (by simp [Diagnostic.odrConflict])
  rw [unionGraph, mem_foldl_iff addDiagnostic (fun g d' => mem_diagnostics_addDiagnostic),
    foldl_absorb_eq _ hparts, mem_foldl_iff _ (mem_joinUnit hfact)]
  refine (or_iff_left ?_).trans (by simp [empty])
  rintro ⟨d', hd', heq⟩
  exact hconflict d' hd' heq

/-- A merged graph reports the malformed facts that the units report. -/
theorem mem_merged_iff (hparts : ∀ p ∈ parts, p.graph.WellFormed)
    (hrun : (run digest options cancelled parts).2 = .ok (g, stats)) {d : Diagnostic}
    (hfact : d.IsMalformedFact) :
    d ∈ g.diagnostics ↔ ∃ p ∈ parts, d ∈ p.graph.diagnostics := by
  have hunion : (∃ p ∈ inOrder parts, d ∈ p.graph.diagnostics) ↔
      ∃ p ∈ parts, d ∈ p.graph.diagnostics :=
    exists_congr fun p => and_congr_left fun _ => List.mem_mergeSort
  have hstart : d ∈ (unionGraph (.ofUnits digest (inOrder parts)) (inOrder parts)).diagnostics ↔
      ∃ p ∈ inOrder parts, d ∈ p.graph.diagnostics :=
    mem_unionGraph (wellFormed_inOrder hparts) hfact
  rw [← hunion, ← hstart]
  constructor
  · intro hd
    obtain ⟨s, g₁, h, dispatch, g₂, flow, hall, hvirtual, hpointers, rfl⟩ := passes_of_run hrun
    exact (reports_passes hvirtual hpointers).silent hall d hd hfact
  · obtain ⟨h, -, hevolves⟩ := evolves_of_run hparts hrun
    exact fun hd => hevolves.diagnostics hd

/-- A merged graph explains what some unit explains. -/
theorem explains_merged_iff (hparts : ∀ p ∈ parts, p.graph.WellFormed)
    (hrun : (run digest options cancelled parts).2 = .ok (g, stats)) {key : FunctionKey} :
    g.Explains key ↔ ∃ p ∈ parts, p.graph.Explains key := by
  constructor
  · rintro ⟨d, hd, what, hdetail⟩
    obtain ⟨p, hp, hd⟩ := (mem_merged_iff hparts hrun ⟨_, hdetail⟩).mp hd
    exact ⟨p, hp, d, hd, what, hdetail⟩
  · rintro ⟨p, hp, d, hd, what, hdetail⟩
    exact ⟨d, (mem_merged_iff hparts hrun ⟨_, hdetail⟩).mpr ⟨p, hp, hd⟩, what, hdetail⟩

/-! ## Declarations -/

/-- The functions that are declared in a merged graph: by some unit, or as an end of an override
that no unit has. -/
theorem declared_mem_merged_iff (hparts : ∀ p ∈ parts, p.graph.WellFormed)
    (hrun : (run digest options cancelled parts).2 = .ok (g, stats)) :
    ∃ h,
      Hierarchy.build (mergedFacts digest parts).classes (mergedFacts digest parts).functions =
        .ok h ∧
      ∀ key, (key, .declared) ∈ g.traits ↔
        (∃ p ∈ parts, (key, .declared) ∈ p.graph.traits) ∨
        (∃ o ∈ h.overrides, key = o.overrider ∨ key = o.base) ∧
          ∀ p ∈ parts, .node key ∉ p.graph.features := by
  obtain ⟨h, hbuild, hevolves⟩ := evolves_of_run hparts hrun
  refine ⟨h, hbuild, fun key => ?_⟩
  rw [hevolves.traits, traits_unionGraph _ (wellFormed_inOrder hparts)]
  have hnode : .node key ∈ gather (inOrder parts) (taken (.ofUnits digest (inOrder parts))) ↔
      ∃ p ∈ parts, .node key ∈ p.graph.features :=
    node_mem_gather_taken.trans (exists_congr fun p => and_congr_left fun _ => List.mem_mergeSort)
  constructor
  · rintro (⟨p, hp, hx, -⟩ | (⟨hx, -⟩ | ⟨o, ho, ⟨-, hx⟩ | ⟨-, hend, hnew⟩⟩) | ⟨hx, -⟩)
    · exact Or.inl ⟨p, List.mem_mergeSort.mp hp, hx⟩
    · exact absurd hx (by simp)
    · exact absurd hx (by simp)
    · exact Or.inr ⟨⟨o, ho, hend⟩, fun p hp hmem => hnew (hnode.mpr ⟨p, hp, hmem⟩)⟩
    · exact absurd hx (by simp)
  · rintro (⟨p, hp, hx⟩ | ⟨⟨o, ho, hend⟩, hnew⟩)
    · exact Or.inl ⟨p, List.mem_mergeSort.mpr hp, hx, by simp [KeepsTrait]⟩
    · refine Or.inr (Or.inl (Or.inr ⟨o, ho, Or.inr ⟨rfl, hend, fun hmem => ?_⟩⟩))
      obtain ⟨p, hp, hmem⟩ := hnode.mp hmem
      exact hnew p hp hmem

/-- A function is a stub in every unit that has it. -/
def StubInUnits (parts : List UnitGraph) (key : FunctionKey) : Prop :=
  ∀ p ∈ parts, ∀ f ∈ p.graph.nodes, f.key = key → f.stub = true

theorem stubInUnits_iff {key : FunctionKey} :
    StubInUnits parts key ↔ ¬ ∃ p ∈ parts, (key, .declared) ∈ p.graph.traits := by
  simp only [StubInUnits, traits, Set.mem_ofPred_eq, Function.Has, not_exists, not_and,
    Bool.not_eq_false]

/-! ## Main statement -/

/-- Which functions of a merged graph are stubs, and which of the stubs are explained.  A function
is a stub if it is one in every unit that has it; if no unit has it, it is a stub unless it is an
end of an override of the hierarchy of all classes.  The merged graph explains what some unit
explains: the stubs that some unit has are among it. -/
theorem stubs_merged_iff {units : List (Nat × TranslationUnit)}
    (hparts : UnitGraph.analyseIndexed options cancelled units = .ok parts) :
    ∀ digest options cancelled g stats, (run digest options cancelled parts).2 = .ok (g, stats) →
      (∃ h,
        Hierarchy.build (mergedFacts digest parts).classes (mergedFacts digest parts).functions =
          .ok h ∧
        ∀ f ∈ g.nodes, (f.stub = true ↔ StubInUnits parts f.key ∧
          ((∃ p ∈ parts, .node f.key ∈ p.graph.features) ∨
            ∀ o ∈ h.overrides, f.key ≠ o.overrider ∧ f.key ≠ o.base))) ∧
      (∀ key, g.Explains key ↔ ∃ p ∈ parts, p.graph.Explains key) ∧
      ∀ f ∈ g.nodes, f.stub = true → (∃ p ∈ parts, .node f.key ∈ p.graph.features) →
        g.Explains f.key := by
  intro digest options cancelled g stats hrun
  have hwell : ∀ p ∈ parts, p.graph.WellFormed := fun p => UnitGraph.wellFormed_of_mem hparts
  obtain ⟨h, hbuild, hdeclared⟩ := declared_mem_merged_iff hwell hrun
  have hstub : ∀ f ∈ g.nodes, f.stub = true ↔ StubInUnits parts f.key ∧
      ((∃ p ∈ parts, .node f.key ∈ p.graph.features) ∨
        ∀ o ∈ h.overrides, f.key ≠ o.overrider ∧ f.key ≠ o.base) := by
    intro f hf
    have hnot : f.stub = true ↔ ¬ f.Has .declared := by simp [Function.Has]
    rw [hnot, has_iff_mem_traits (wellFormed_of_run hwell hrun).nodup hf, hdeclared,
      stubInUnits_iff, not_or]
    refine and_congr_right fun _ => ?_
    rw [not_and_or, or_comm]
    simp only [not_exists, not_forall, not_not, not_or, exists_prop, not_and]
  refine ⟨⟨h, hbuild, hstub⟩, fun key => explains_merged_iff hwell hrun, ?_⟩
  rintro f hf hf'stub ⟨p, hp, hnode⟩
  obtain ⟨f', hf', hkey⟩ := List.mem_map.mp hnode
  have hstub' : f'.stub = true := ((hstub f hf).mp hf'stub).1 p hp f' hf' hkey
  have hexplains := (UnitGraph.accountsFor_of_analyse (UnitGraph.analyse_of_mem hparts hp)
    hf' hstub').explains
  exact (explains_merged_iff hwell hrun).mpr ⟨p, hp, hkey ▸ hexplains⟩

/-- One unit calls through a slot, in a function that it has no record of.  Another unit sets the
slot, so that only both of them make the caller known. -/
def unlistedCaller : List (Nat × TranslationUnit) :=
  [(0, { name := "use"
         callSites := [{ caller := "main", target := .pointer (.global "callback") }] }),
    (1, { name := "set"
          functions := [{ key := "handler", defined := true }]
          assignments := [{ destination := .global "callback", source := .function "handler" }] })]

/-- The caller is a stub of the merged graph, which has no diagnostic at all. -/
theorem unlistedCaller_unexplained : ∃ p q g stats,
    UnitGraph.analyseIndexed {} false unlistedCaller = .ok [p, q] ∧
    (run id {} false [p, q]).2 = .ok (g, stats) ∧ g.diagnostics = [] ∧
    ∃ f ∈ g.nodes, f.key = "main" ∧ f.stub = true :=
  ⟨_, _, _, _, by cbv, by cbv, by cbv, by decide⟩

theorem unlistedCaller_unmet : ∃ p q g stats,
    UnitGraph.analyseIndexed {} false unlistedCaller = .ok [p, q] ∧
    (run id {} false [p, q]).2 = .ok (g, stats) ∧
    StubInUnits [p, q] "main" ∧ ¬ g.Explains "main" ∧
    ¬ ∃ r ∈ [p, q], .node "main" ∈ r.graph.features := by
  obtain ⟨p, q, g, stats, hparts, hrun, hsilent, f, hf, hkey, hstub⟩ : ∃ p q g stats,
      UnitGraph.analyseIndexed {} false unlistedCaller = .ok [p, q] ∧
      (run id {} false [p, q]).2 = .ok (g, stats) ∧ g.diagnostics = [] ∧
      ∃ f ∈ g.nodes, f.key = "main" ∧ f.stub = true :=
    ⟨_, _, _, _, by cbv, by cbv, by cbv, by decide⟩
  obtain ⟨⟨h, -, hstubs⟩, -, hexplained⟩ := stubs_merged_iff hparts id {} false g stats hrun
  have hnot : ¬ g.Explains f.key := by
    rintro ⟨d, hd, -⟩
    rw [hsilent] at hd
    exact absurd hd List.not_mem_nil
  rw [← hkey]
  exact ⟨p, q, g, stats, hparts, hrun, ((hstubs f hf).mp hstub).1, hnot,
    fun hmet => hnot (hexplained f hf hstub hmet)⟩

end Merge

end CallGraphs
