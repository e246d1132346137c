import CallGraphs.Proofs.Analysis.Marks
import CallGraphs.Proofs.Merge.Union

/-!
# What is known of the functions of a merged graph

The union of the graphs of the units knows of a function what some unit knows,
apart from the bodies of excluded definitions (`traits_unionGraph`).  The passes
over the facts of all units then bring what the hierarchy of all classes knows,
and mark lambdas (`evolves_of_run`).
-/

namespace CallGraphs

namespace Merge

open CallGraphs.Graph

variable (a : Arbitration) {digest : String → String} {g : Graph}

/-- A trait of a function is taken over, unless it is the body of an excluded definition. -/
def KeepsTrait (index : Nat) (x : FunctionKey × Trait) : Prop :=
  x.2 = .body → a.excludes index x.1 = false

/-- What the union knows of functions from one unit. -/
def takenTraits (p : UnitGraph) : Set (FunctionKey × Trait) :=
  {x | x ∈ p.graph.traits ∧ KeepsTrait a p.index x}

theorem traits_joinFunction (index : Nat) (f : Function) : (joinFunction a index g f).traits =
    g.traits ∪ {x | x.1 = f.key ∧ f.Has x.2 ∧ KeepsTrait a index x} := by
  rw [joinFunction, traits_addFunction, keptFunction]
  refine congrArg _ ?_
  ext ⟨key, t⟩
  cases hlost : a.excludes index f.key with
  | true =>
      cases t with
      | body =>
          refine iff_of_false (fun hx => absurd hx.2 (by simp [Function.Has])) fun hx => ?_
          obtain ⟨rfl, -, hkeep⟩ := hx
          exact absurd (hlost.symm.trans (hkeep rfl)) (by simp)
      | _ => simp [KeepsTrait, Function.Has]
  | false =>
      simp only [Bool.false_eq_true, if_false, KeepsTrait]
      refine and_congr_right fun hkey => (and_iff_left fun _ => ?_).symm
      obtain rfl : key = f.key := hkey
      exact hlost

theorem traits_foldl_joinFunction (index : Nat) (fs : List Function) :
    (fs.foldl (joinFunction a index) g).traits =
      g.traits ∪ {x | ∃ f ∈ fs, x.1 = f.key ∧ f.Has x.2 ∧ KeepsTrait a index x} := by
  induction fs generalizing g with
  | nil => simp
  | cons f fs ih =>
      rw [List.foldl_cons, ih, traits_joinFunction, Set.union_assoc]
      refine congrArg _ ?_
      ext x
      simp

/-- The calls and the diagnostics of a unit, once its functions are there. -/
theorem evolves_takeRest {p : UnitGraph} (hp : p.graph.WellFormed) (hg : Covers p.graph.keys g) :
    Evolves g (p.graph.diagnostics.foldl takeDiagnostic
      (p.graph.calls.foldl (joinCall a p.index) g)) ∅ := by
  have hcalls := Evolves.foldl id (Covers p.graph.keys) (joinCall a p.index) (T := fun _ => ∅)
    p.graph.calls g (fun g c hc hg => ⟨?_, hg.adds (adds_joinCall a hg.1 p.index c)⟩) hg
  · refine (hcalls.congr (by simp)).trans_empty
      (Evolves.foldl_empty id (fun g d => ?_) p.graph.diagnostics _)
    show Evolves g (takeDiagnostic g d) ∅
    rw [takeDiagnostic]
    split
    · exact .refl g
    · exact evolves_addDiagnostic d
  · show Evolves g (joinCall a p.index g c) ∅
    rw [joinCall]
    split
    · obtain ⟨hcaller, hcallee⟩ := hp.ends hc
      exact evolves_addCall (hg.2 _ hcaller) (hg.2 _ hcallee)
    · exact .refl g

/-- The functions of a unit are in the graph that takes them over. -/
theorem covers_foldl_joinFunction (hg : g.WellFormed) (p : UnitGraph) :
    Covers p.graph.keys (p.graph.nodes.foldl (joinFunction a p.index) g) := by
  have hadds := Adds.foldl_graph (l := p.graph.nodes) (joinFunction a p.index)
    (fun g f hg => adds_joinFunction a hg p.index f) hg
  refine ⟨hadds.wellFormed, fun key hkey => ?_⟩
  obtain ⟨f, hf, rfl⟩ := List.mem_map.mp hkey
  exact hadds.features ▸ Or.inr ⟨f, hf, Or.inl rfl, trivial⟩

theorem traits_absorb (hg : g.WellFormed) {p : UnitGraph} (hp : p.graph.WellFormed) :
    (absorb a g p).traits = g.traits ∪ takenTraits a p := by
  have hrest := evolves_takeRest a hp (covers_foldl_joinFunction a hg p)
  rw [absorb_eq_joinUnit a hp, joinUnit, hrest.traits, Set.union_empty, traits_foldl_joinFunction]
  refine congrArg _ ?_
  ext x
  constructor
  · rintro ⟨f, hf, hkey, hhas, hkeep⟩
    exact ⟨⟨f, hf, hkey.symm, hhas⟩, hkeep⟩
  · rintro ⟨⟨f, hf, hkey, hhas⟩, hkeep⟩
    exact ⟨f, hf, hkey.symm, hhas, hkeep⟩

theorem wellFormed_foldl_absorb {units : List UnitGraph}
    (hunits : ∀ p ∈ units, p.graph.WellFormed) (hg : g.WellFormed) :
    (units.foldl (absorb a) g).WellFormed := by
  induction units generalizing g with
  | nil => exact hg
  | cons p units ih =>
      exact ih (fun q hq => hunits q (List.mem_cons_of_mem _ hq))
        (adds_absorb a hg (hunits p List.mem_cons_self)).wellFormed

theorem traits_foldl_absorb {units : List UnitGraph} (hunits : ∀ p ∈ units, p.graph.WellFormed)
    (hg : g.WellFormed) : (units.foldl (absorb a) g).traits =
      g.traits ∪ {x | ∃ p ∈ units, x ∈ takenTraits a p} := by
  induction units generalizing g with
  | nil => simp
  | cons p units ih =>
      have hp := hunits p List.mem_cons_self
      rw [List.foldl_cons, ih (fun q hq => hunits q (List.mem_cons_of_mem _ hq))
        (adds_absorb a hg hp).wellFormed, traits_absorb a hg hp, Set.union_assoc]
      refine congrArg _ ?_
      ext x
      simp

theorem evolves_conflicts (g : Graph) :
    Evolves g (a.conflicts.foldl Graph.addDiagnostic g) ∅ :=
  Evolves.foldl_empty id (fun _ d => evolves_addDiagnostic d) a.conflicts g

/-- The union knows of a function what some unit knows. -/
theorem traits_unionGraph {units : List UnitGraph} (hunits : ∀ p ∈ units, p.graph.WellFormed) :
    (unionGraph a units).traits = {x | ∃ p ∈ units, x ∈ takenTraits a p} := by
  rw [unionGraph, (evolves_conflicts a _).traits, Set.union_empty,
    traits_foldl_absorb a hunits wellFormed_empty, traits_empty, Set.empty_union]

/-! ## The merge -/

theorem wellFormed_of_run {options : Options} {cancelled : Bool} {parts : List UnitGraph}
    {stats : MergeStats} (hparts : ∀ p ∈ parts, p.graph.WellFormed)
    (hrun : (run digest options cancelled parts).2 = .ok (g, stats)) : g.WellFormed := by
  have hunion := adds_unionGraph (.ofUnits digest (inOrder parts)) (wellFormed_inOrder hparts)
  obtain ⟨s, g₁, h, dispatch, g₂, flow, -, hvirtual, hpointers, rfl⟩ := passes_of_run hrun
  exact (exists_resolution hunion.wellFormed hvirtual hpointers).1

/-- The passes of a merge over the union of the graphs. -/
theorem evolves_of_run {options : Options} {cancelled : Bool} {parts : List UnitGraph}
    {stats : MergeStats} (hparts : ∀ p ∈ parts, p.graph.WellFormed)
    (hrun : (run digest options cancelled parts).2 = .ok (g, stats)) :
    ∃ h, Hierarchy.build (facts (.ofUnits digest (inOrder parts)) (inOrder parts)).classes
        (facts (.ofUnits digest (inOrder parts)) (inOrder parts)).functions = .ok h ∧
      Evolves (unionGraph (.ofUnits digest (inOrder parts)) (inOrder parts)) g
        (VirtualCalls.marked h (gather (inOrder parts) (taken (.ofUnits digest (inOrder parts)))) ∪
          PointerCalls.asLambdas (PointerCalls.lambdas h
            (facts (.ofUnits digest (inOrder parts)) (inOrder parts)))) := by
  have hunion := adds_unionGraph (.ofUnits digest (inOrder parts)) (wellFormed_inOrder hparts)
  obtain ⟨s, g₁, h, dispatch, g₂, flow, -, hvirtual, hpointers, rfl⟩ := passes_of_run hrun
  rw [← features_unionGraph _ (wellFormed_inOrder hparts)]
  exact ⟨h, (VirtualCalls.adds_run s hunion.wellFormed hvirtual).1,
    evolves_passes hunion.wellFormed hvirtual hpointers⟩

end Merge

/-! ## Units that are analysed -/

namespace UnitGraph

variable {options : Options} {cancelled : Bool} {units : List (Nat × TranslationUnit)}
  {parts : List UnitGraph}

theorem analyse_of_mem (hparts : analyseIndexed options cancelled units = .ok parts)
    {p : UnitGraph} (hp : p ∈ parts) : analyse options cancelled p.index p.unit = .ok p := by
  have hall := forall₂_of_mapM hparts
  clear hparts
  induction hall with
  | nil => exact absurd hp List.not_mem_nil
  | cons hhead _ ih =>
      rcases List.mem_cons.mp hp with rfl | hp
      · have hanalysed := analysed_of_analyse hhead
        rwa [hanalysed.index, hanalysed.unit]
      · exact ih hp

theorem wellFormed_of_mem (hparts : analyseIndexed options cancelled units = .ok parts)
    {p : UnitGraph} (hp : p ∈ parts) : p.graph.WellFormed :=
  (analysed_of_analyse (analyse_of_mem hparts hp)).wellFormed

end UnitGraph

end CallGraphs
