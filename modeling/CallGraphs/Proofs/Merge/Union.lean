import CallGraphs.Proofs.Analysis.Resolution
import CallGraphs.Proofs.Merge.Renumbering
import Mathlib.Data.List.Forall2

/-!
# The union of graphs and facts

What a merge starts from.  The union of the graphs of the units shows what they
show, apart from the bodies and calls of excluded definitions and from definite
virtual calls (`adds_unionGraph`).  Where no definition is excluded, the
facts of all units together are the lists of facts one after the other
(`facts_of_excluded_eq_nil`).  So units that are merged, and the same facts
analysed as one unit, end with two resolutions of the same facts (`BothWays`).
-/

namespace CallGraphs

namespace Merge

open CallGraphs.Graph

/-! ## Graphs -/

/-- What is taken over from the graph of a unit. -/
def Keeps (a : Arbitration) (index : Nat) : Feature → Prop
  | .node _ => True
  | .body key => a.excludes index key = false
  | .call caller callee kind confidence =>
    keepsCall a index ⟨caller, callee, kind, confidence, none⟩ = true

/-- What the union has from the graph of a unit. -/
def taken (a : Arbitration) (p : UnitGraph) : Set Feature :=
  {x | x ∈ p.graph.features ∧ Keeps a p.index x}

variable (a : Arbitration) {digest : String → String} {g : Graph}

theorem adds_joinFunction (hg : g.WellFormed) (index : Nat) (f : Function) :
    Adds g (joinFunction a index g f) {x | x ∈ ofFunction f ∧ Keeps a index x} := by
  refine (adds_addFunction hg _).congr (congrArg _ ?_)
  ext x
  rw [keptFunction]
  split
  · next hlost =>
    -- an excluded definition stays as a declaration
    constructor
    · rintro (rfl | ⟨hbody, -⟩)
      · exact ⟨Or.inl rfl, trivial⟩
      · exact absurd hbody (by simp)
    · rintro ⟨rfl | ⟨-, rfl⟩, hkeep⟩
      · exact Or.inl rfl
      · exact absurd (hlost.symm.trans hkeep) (by simp)
  · next hkept =>
    refine ⟨fun hx => ⟨hx, ?_⟩, fun hx => hx.1⟩
    rcases hx with rfl | ⟨-, rfl⟩
    · trivial
    · exact Bool.eq_false_iff.mpr hkept

theorem adds_joinCall (hg : g.WellFormed) (index : Nat) (c : Call) :
    Adds g (joinCall a index g c) {x | keepsCall a index c = true ∧
      x ∈ Scope.ofCall c.caller c.callee c.kind c.confidence} := by
  rw [joinCall]
  split
  · next hkeep =>
    refine (adds_addCall hg c).congr ?_
    simp [hkeep]
  · next hkeep =>
    refine (Adds.refl hg).congr ?_
    simp [hkeep]

theorem adds_takeDiagnostic (hg : g.WellFormed) (d : Diagnostic) :
    Adds g (takeDiagnostic g d) ∅ := by
  rw [takeDiagnostic]
  split
  · exact .refl hg
  · exact adds_addDiagnostic hg d

/-- The functions and the calls that are taken over, in terms of what the graph shows. -/
theorem taken_eq {p : UnitGraph} (hp : p.graph.WellFormed) :
    gather p.graph.nodes (fun f => {x | x ∈ ofFunction f ∧ Keeps a p.index x}) ∪
      gather p.graph.calls (fun c => {x | keepsCall a p.index c = true ∧
        x ∈ Scope.ofCall c.caller c.callee c.kind c.confidence}) = taken a p := by
  ext x
  constructor
  · rintro (⟨f, hf, hx, hkeep⟩ | ⟨c, hc, hkeep, hx⟩)
    · rcases hx with rfl | ⟨hbody, rfl⟩
      · exact ⟨List.mem_map_of_mem hf, trivial⟩
      · exact ⟨⟨f, hf, rfl, hbody⟩, hkeep⟩
    · obtain ⟨hcaller, hcallee⟩ := hp.ends hc
      rcases hx with rfl | rfl | rfl
      · exact ⟨hcaller, trivial⟩
      · exact ⟨hcallee, trivial⟩
      · exact ⟨call_mem_features.mpr ⟨c, hc, rfl, rfl, rfl, rfl⟩, hkeep⟩
  · rintro ⟨hx, hkeep⟩
    cases x with
    | node key =>
        obtain ⟨f, hf, rfl⟩ := List.mem_map.mp hx
        exact Or.inl ⟨f, hf, Or.inl rfl, trivial⟩
    | body key =>
        obtain ⟨f, hf, rfl, hbody⟩ := hx
        exact Or.inl ⟨f, hf, Or.inr ⟨hbody, rfl⟩, hkeep⟩
    | call caller callee kind confidence =>
        obtain ⟨c, hc, rfl, rfl, rfl, rfl⟩ := call_mem_features.mp hx
        exact Or.inr ⟨c, hc, hkeep, Or.inr (Or.inr rfl)⟩

theorem adds_absorb (hg : g.WellFormed) {p : UnitGraph} (hp : p.graph.WellFormed) :
    Adds g (absorb a g p) (taken a p) := by
  have hfunctions := Adds.foldl_graph (l := p.graph.nodes) (joinFunction a p.index)
    (fun g f hg => adds_joinFunction a hg p.index f) hg
  have hcalls := Adds.foldl_graph (l := p.graph.calls) (joinCall a p.index)
    (fun g c hg => adds_joinCall a hg p.index c) hfunctions.wellFormed
  have hreports := Adds.foldl_graph (l := p.graph.diagnostics) takeDiagnostic
    (fun g d hg => adds_takeDiagnostic hg d) hcalls.wellFormed
  rw [absorb_eq_joinUnit a hp]
  refine ((hfunctions.trans hcalls).trans hreports).congr ?_
  rw [gather_empty, Set.union_empty, taken_eq a hp]

/-- The union shows what is taken over from each unit. -/
theorem adds_unionGraph {units : List UnitGraph} (hunits : ∀ p ∈ units, p.graph.WellFormed) :
    Adds .empty (unionGraph a units) (gather units (taken a)) := by
  have habsorbed := Adds.foldl (l := units) id (fun _ => True) (absorb a)
    (fun g p hp hg _ => ⟨adds_absorb a hg (hunits p hp), trivial⟩) wellFormed_empty trivial
  have hreports := Adds.foldl_graph (l := a.conflicts) addDiagnostic
    (fun g d hg => adds_addDiagnostic hg d) habsorbed.wellFormed
  refine (habsorbed.trans hreports).congr ?_
  rw [gather_empty, Set.union_empty]

theorem features_unionGraph {units : List UnitGraph} (hunits : ∀ p ∈ units, p.graph.WellFormed) :
    (unionGraph a units).features = gather units (taken a) := by
  rw [(adds_unionGraph a hunits).features, features_empty, Set.empty_union]

/-! ## Facts -/

section Facts

variable {a}

theorem excludes_of_excluded_eq_nil (ha : a.excluded = []) (index : Nat) (f : FunctionKey) :
    a.excludes index f = false := by
  simp [Arbitration.excludes, ha]

theorem keptFacts_of_excluded_eq_nil (ha : a.excluded = []) (p : UnitGraph) :
    keptFacts a p = p.unit := by
  have hlost : a.excludes p.index = fun _ => false :=
    funext (excludes_of_excluded_eq_nil ha p.index)
  rw [keptFacts, hlost]
  simp

theorem facts_of_excluded_eq_nil (ha : a.excluded = []) (units : List UnitGraph) :
    facts a units = joinFacts (units.map (·.unit)) := by
  rw [facts, funext (keptFacts_of_excluded_eq_nil ha)]

end Facts

/-! ## The merge -/

/-- The units in the order of their indices. -/
def inOrder (units : List UnitGraph) : List UnitGraph :=
  units.mergeSort fun p q => p.index ≤ q.index

/-- A merge runs three passes over the facts of all units, starting from the union of their
graphs, in the scope of the whole program. -/
theorem passes_of_run {options : Options} {cancelled : Bool} {parts : List UnitGraph}
    {stats : MergeStats} (hrun : (run digest options cancelled parts).2 = .ok (g, stats)) :
    ∃ s g₁ h dispatch g₂ flow, s.isGlobal = true ∧
      VirtualCalls.run s (facts (.ofUnits digest (inOrder parts)) (inOrder parts))
        (unionGraph (.ofUnits digest (inOrder parts)) (inOrder parts)) = .ok (g₁, h, dispatch) ∧
      PointerCalls.run s options false h (facts (.ofUnits digest (inOrder parts)) (inOrder parts))
        g₁ = (g₂, .ok flow) ∧
      g = (LifetimeCalls.run s options h (facts (.ofUnits digest (inOrder parts)) (inOrder parts))
        g₂).1 := by
  rw [run] at hrun
  split at hrun
  · exact absurd hrun (by simp)
  dsimp only at hrun
  split at hrun
  · exact absurd hrun (by simp)
  · next g' flow hresolve =>
    obtain ⟨rfl, -⟩ := Prod.mk.inj (Except.ok.inj hrun)
    rw [resolve] at hresolve
    split at hresolve
    · exact absurd hresolve (by simp)
    · next g₁ h dispatch hvirtual =>
      split at hresolve
      · exact absurd hresolve (by simp)
      · next g₂ flow' hpointers =>
        obtain ⟨rfl, -⟩ := Prod.mk.inj (Except.ok.inj hresolve)
        exact ⟨_, g₁, h, dispatch, g₂, flow', rfl, hvirtual, hpointers, rfl⟩

theorem wellFormed_inOrder {parts : List UnitGraph} (hparts : ∀ p ∈ parts, p.graph.WellFormed) :
    ∀ p ∈ inOrder parts, p.graph.WellFormed :=
  fun p hp => hparts p (List.mem_mergeSort.mp hp)

/-- A merge resolves the facts of all units over the union of their graphs. -/
theorem exists_resolution_of_run {options : Options} {cancelled : Bool} {parts : List UnitGraph}
    {stats : MergeStats} (hparts : ∀ p ∈ parts, p.graph.WellFormed)
    (hrun : (run digest options cancelled parts).2 = .ok (g, stats)) :
    ∃ r : Resolution options
        (facts (.ofUnits digest (inOrder parts)) (inOrder parts))
        (gather (inOrder parts) (taken (.ofUnits digest (inOrder parts)))),
      g.features = r.features := by
  have hunion := adds_unionGraph (.ofUnits digest (inOrder parts)) (wellFormed_inOrder hparts)
  obtain ⟨s, g₁, h, dispatch, g₂, flow, -, hvirtual, hpointers, rfl⟩ := passes_of_run hrun
  rw [← features_unionGraph _ (wellFormed_inOrder hparts)]
  exact (exists_resolution hunion.wellFormed hvirtual hpointers).2

end Merge

/-! ## Lists of units -/

theorem forall₂_of_mapM {α β ε : Type} {f : α → Except ε β} {l : List α} {l' : List β}
    (h : l.mapM f = .ok l') : List.Forall₂ (fun a b => f a = .ok b) l l' := by
  induction l generalizing l' with
  | nil =>
      obtain rfl := Except.ok.inj h
      exact .nil
  | cons a l ih =>
      rw [List.mapM_cons] at h
      cases ha : f a with
      | error e =>
          rw [ha] at h
          exact absurd h (by simp [bind, Except.bind])
      | ok b =>
          rw [ha] at h
          cases hl : l.mapM f with
          | error e =>
              rw [hl] at h
              exact absurd h (by simp [bind, Except.bind])
          | ok bs =>
              rw [hl] at h
              obtain rfl := Except.ok.inj h
              exact .cons ha (ih hl)

namespace UnitGraph

variable {options : Options} {cancelled : Bool} {units : List (Nat × TranslationUnit)}
  {parts : List UnitGraph}

theorem analysed_of_analyseIndexed (hparts : analyseIndexed options cancelled units = .ok parts) :
    List.Forall₂ (fun unit p => Analysed options unit.1 unit.2 p) units parts :=
  (forall₂_of_mapM hparts).imp fun _ _ => analysed_of_analyse

/-- Analysed units keep their indices, their facts and their order. -/
theorem map_of_analysed
    (hparts : List.Forall₂ (fun unit p => Analysed options unit.1 unit.2 p) units parts) :
    parts.map (fun p => (p.index, p.unit)) = units := by
  induction hparts with
  | nil => rfl
  | cons hhead _ ih => rw [List.map_cons, ih, hhead.index, hhead.unit]

theorem analysed_of_mem
    (hparts : List.Forall₂ (fun unit p => Analysed options unit.1 unit.2 p) units parts)
    {p : UnitGraph} (hp : p ∈ parts) : Analysed options p.index p.unit p := by
  induction hparts with
  | nil => exact absurd hp List.not_mem_nil
  | cons hhead _ ih =>
      rcases List.mem_cons.mp hp with rfl | hp
      · exact ⟨rfl, rfl, hhead.wellFormed, hhead.unit ▸ hhead.features⟩
      · exact ih hp

end UnitGraph

namespace Merge

/-! ## Both ways -/

/-- The facts of units as one unit of any name, list after list in the order of the indices. -/
def concatenation (name : String) (units : List (Nat × TranslationUnit)) : TranslationUnit :=
  { joinFacts ((units.mergeSort fun a b => a.1 ≤ b.1).map (·.2)) with name := name }

theorem map_unit_inOrder (parts : List UnitGraph) :
    (inOrder parts).map (·.unit) =
      ((parts.map fun p => (p.index, p.unit)).mergeSort fun a b => a.1 ≤ b.1).map (·.2) := by
  rw [inOrder, ← List.map_mergeSort (f := fun p : UnitGraph => (p.index, p.unit))
    (r := fun p q => p.index ≤ q.index) (fun _ _ _ _ => rfl), List.map_map]
  rfl

/-- Units that are analysed one by one and merged, no definition being excluded, and that are also
analysed as one unit.  The name and the index of that unit do not matter. -/
structure BothWays (digest : String → String) (options : Options) (cancelled : Bool)
    (units : List (Nat × TranslationUnit)) (parts : List UnitGraph) (g : Graph)
    (whole : UnitGraph) : Prop where
  analyse_parts : UnitGraph.analyseIndexed options cancelled units = .ok parts
  run_parts : ∃ stats, (run digest options cancelled parts).2 = .ok (g, stats)
  excluded_eq_nil : (Arbitration.ofUnits digest (inOrder parts)).excluded = []
  analyse_whole : ∃ name index,
    UnitGraph.analyse options cancelled index (concatenation name units) = .ok whole

namespace BothWays

variable {digest : String → String} {options : Options} {cancelled : Bool}
  {units : List (Nat × TranslationUnit)} {parts : List UnitGraph} {g : Graph} {whole : UnitGraph}

theorem analysed (h : BothWays digest options cancelled units parts g whole) :
    ∀ p ∈ inOrder parts, UnitGraph.Analysed options p.index p.unit p := by
  intro p hp
  exact UnitGraph.analysed_of_mem (UnitGraph.analysed_of_analyseIndexed h.analyse_parts)
    (List.mem_mergeSort.mp hp)

theorem map_unit (h : BothWays digest options cancelled units parts g whole) :
    (inOrder parts).map (·.unit) = (units.mergeSort fun a b => a.1 ≤ b.1).map (·.2) := by
  rw [map_unit_inOrder,
    UnitGraph.map_of_analysed (UnitGraph.analysed_of_analyseIndexed h.analyse_parts)]

/-- The merged graph shows what the facts of all units come to over the union of the graphs. -/
theorem exists_merged (h : BothWays digest options cancelled units parts g whole) :
    ∃ r : Resolution options (joinFacts ((inOrder parts).map (·.unit)))
        (gather (inOrder parts) (taken (.ofUnits digest (inOrder parts)))),
      g.features = r.features := by
  obtain ⟨stats, hrun⟩ := h.run_parts
  have hresolved := exists_resolution_of_run (fun p hp =>
    (h.analysed p (List.mem_mergeSort.mpr hp)).wellFormed) hrun
  rwa [facts_of_excluded_eq_nil h.excluded_eq_nil] at hresolved

/-- The graph of the one unit shows what the same facts come to over their direct calls. -/
theorem exists_single (h : BothWays digest options cancelled units parts g whole) :
    ∃ r : Resolution options (joinFacts ((inOrder parts).map (·.unit)))
        (DirectCalls.added (joinFacts ((inOrder parts).map (·.unit)))),
      whole.graph.features = r.features := by
  obtain ⟨name, index, hwhole⟩ := h.analyse_whole
  obtain ⟨r, hr⟩ := (UnitGraph.analysed_of_analyse hwhole).features
  rw [h.map_unit]
  exact ⟨r.rename, hr⟩

end BothWays

end Merge

end CallGraphs
