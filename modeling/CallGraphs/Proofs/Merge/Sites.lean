import CallGraphs.Proofs.Analysis.Unresolved
import CallGraphs.Proofs.Merge.Derivation
import Mathlib

/-!
# What becomes of a call site

Between the facts of a unit and the merged graph a call site may get lost in
many places: its caller may be an excluded definition, the call may be taken
out because it was certain within the unit only, and whatever was found out
about pointers is found out again.  `Accounts` says that none is lost by
mistake.  A site that is kept has all its calls in the graph, or is reported as
a call without targets; the graph reports no call and has no direct call but
those of such sites; and a call through a slot is never certain.  The merge of
any units accounts for their sites in this way (`accounts_of_run`).
-/

namespace CallGraphs

namespace Merge

open CallGraphs.Flow

/-- The facts of analysed units together, without those of excluded definitions. -/
def mergedFacts (digest : String → String) (parts : List UnitGraph) : TranslationUnit :=
  facts (.ofUnits digest (inOrder parts)) (inOrder parts)

/-- A call site of a unit, its caller not being an excluded definition of the unit. -/
def KeepsSite (a : Arbitration) (parts : List UnitGraph) (site : CallSite) : Prop :=
  ∃ p ∈ parts, site ∈ p.unit.callSites ∧ a.excludes p.index site.caller = false

/-- A graph accounts for the call sites that are kept, given the hierarchy and what the slots
hold. -/
structure Accounts (a : Arbitration) (parts : List UnitGraph) (h : Hierarchy)
    (held : Family FunctionKey) (g : Graph) : Prop where
  /-- Whatever a site calls is in the graph. -/
  called : ∀ site, KeepsSite a parts site → ∀ target kind confidence,
    SiteCalls h held site target kind confidence →
    .call site.caller target kind confidence ∈ g.features
  /-- A call through a slot that has no target is reported. -/
  reported : ∀ site, KeepsSite a parts site → ∀ slot kind receiver,
    PointerCalls.indirect? site = some (slot, kind, receiver) →
    (∀ target, ¬ SiteCalls h held site target kind .may) →
    ∃ reason, g.Unresolved site.caller (site.label.getD slot.text) reason
  /-- A call that is reported is not settled. -/
  unsettled : ∀ caller text reason, g.Unresolved caller text reason →
    ∃ site, KeepsSite a parts site ∧ site.caller = caller ∧ Unsettled h held site text reason
  /-- A direct call is certain, and a site names its callee. -/
  direct : ∀ caller callee confidence, .call caller callee .direct confidence ∈ g.features →
    confidence = .definite ∧
      ∃ site, KeepsSite a parts site ∧ site.caller = caller ∧ site.target = .direct callee
  /-- A call through a slot is never certain. -/
  indirect : ∀ caller callee kind confidence, kind = .pointer ∨ kind = .memberPointer →
    .call caller callee kind confidence ∈ g.features → confidence = .may

variable {digest : String → String} {options : Options} {cancelled : Bool}
  {units : List (Nat × TranslationUnit)}
  {a : Arbitration} {parts : List UnitGraph} {g : Graph} {stats : MergeStats}

/-! ## Reports -/

/-- Arbitration reports conflicts and nothing else. -/
def ReportsConflicts (a : Arbitration) : Prop :=
  ∀ d ∈ a.conflicts, ∃ f kept dropped, d = .odrConflict f kept dropped

theorem reportsConflicts_judge (ha : ReportsConflicts a) (p : UnitGraph) (r : FunctionRecord) :
    ReportsConflicts (a.judge digest p r) := by
  rw [Arbitration.judge]
  split
  · exact ha
  · split
    · exact ha
    · intro d hd
      rcases List.mem_append.mp hd with hd | hd
      · exact ha d hd
      · exact ⟨_, _, _, List.mem_singleton.mp hd⟩

theorem reportsConflicts_ofUnits (parts : List UnitGraph) :
    ReportsConflicts (.ofUnits digest parts) := by
  refine List.foldlRecOn (motive := ReportsConflicts) parts _ (by simp [ReportsConflicts]) ?_
  intro a ha p _
  exact List.foldlRecOn (motive := ReportsConflicts) _ _ ha
    fun a ha r _ => reportsConflicts_judge ha p r

theorem unresolvedCalls_joinFunction (index : Nat) (g : Graph) (f : Function) :
    (joinFunction a index g f).unresolvedCalls = g.unresolvedCalls :=
  g.unresolvedCalls_addFunction _

theorem unresolvedCalls_joinCall (index : Nat) (g : Graph) (c : Call) :
    (joinCall a index g c).unresolvedCalls = g.unresolvedCalls := by
  rw [joinCall]
  split
  · exact g.unresolvedCalls_addCall c
  · rfl

theorem unresolvedCalls_takeDiagnostic (g : Graph) (d : Diagnostic) :
    (takeDiagnostic g d).unresolvedCalls = g.unresolvedCalls := by
  rw [takeDiagnostic]
  split
  · rfl
  · next hreport => exact g.unresolvedCalls_addDiagnostic (Bool.eq_false_iff.mpr hreport)

theorem unresolvedCalls_joinUnit (g : Graph) (p : UnitGraph) :
    (joinUnit a g p).unresolvedCalls = g.unresolvedCalls :=
  (Graph.unresolvedCalls_foldl id unresolvedCalls_takeDiagnostic _ _).trans
    ((Graph.unresolvedCalls_foldl id (unresolvedCalls_joinCall p.index) _ _).trans
      (Graph.unresolvedCalls_foldl id (unresolvedCalls_joinFunction p.index) _ _))

/-- The union of the graphs reports no call: that is left to the passes over all units. -/
theorem unresolvedCalls_unionGraph (hparts : ∀ p ∈ parts, p.graph.WellFormed) :
    (unionGraph (.ofUnits digest parts) parts).unresolvedCalls = [] := by
  have habsorbed := Graph.unresolvedCalls_foldl id
    (unresolvedCalls_joinUnit (a := .ofUnits digest parts)) parts .empty
  rw [unionGraph, foldl_absorb_eq _ hparts]
  refine List.foldlRecOn (motive := fun g : Graph => g.unresolvedCalls = []) _ _ habsorbed ?_
  intro g hg d hd
  obtain ⟨f, kept, dropped, rfl⟩ := reportsConflicts_ofUnits parts d hd
  exact (g.unresolvedCalls_addDiagnostic rfl).trans hg

/-- The merged graph reports the calls that the facts of all units leave unsettled. -/
theorem unresolved_of_run (hparts : ∀ p ∈ parts, p.graph.WellFormed)
    (hrun : (run digest options cancelled parts).2 = .ok (g, stats))
    (r : Resolution options (mergedFacts digest parts)
      (gather (inOrder parts) (taken (.ofUnits digest (inOrder parts)))))
    {caller : FunctionKey} {text : String} {reason : UnresolvedReason} :
    g.Unresolved caller text reason ↔ ∃ site ∈ (mergedFacts digest parts).callSites,
      site.caller = caller ∧ Unsettled r.hierarchy r.held site text reason := by
  have hwell := wellFormed_inOrder hparts
  have hunion := adds_unionGraph (.ofUnits digest (inOrder parts)) hwell
  obtain ⟨s, g₁, h, dispatch, g₂, flow, -, hvirtual, hpointers, rfl⟩ := passes_of_run hrun
  refine (r.unresolved_iff hunion.wellFormed (features_unionGraph _ hwell) hvirtual
    hpointers).trans ?_
  rw [Graph.unresolved_iff_mem_unresolvedCalls, unresolvedCalls_unionGraph hwell]
  simp

/-! ## Main statement -/

theorem mem_callSites_iff_keepsSite {site : CallSite} :
    site ∈ (facts a (inOrder parts)).callSites ↔ KeepsSite a parts site := by
  rw [mem_callSites_facts]
  exact exists_congr fun p => and_congr_left fun _ => List.mem_mergeSort

theorem excludes_of_keepsCall {index : Nat} {c : Call} (hkeeps : keepsCall a index c = true) :
    a.excludes index c.caller = false := by
  simpa using (Bool.and_eq_true_iff.mp hkeeps).2

/-- A call of the merged graph follows from facts of one unit, those of excluded definitions left
out, or from the facts of all units. -/
theorem derived_of_call_mem
    (hparts : ∀ p ∈ inOrder parts, UnitGraph.Analysed options p.index p.unit p)
    (r : Resolution options (facts a (inOrder parts)) (gather (inOrder parts) (taken a)))
    {caller callee : FunctionKey} {kind : EdgeKind} {confidence : Confidence}
    (hcall : .call caller callee kind confidence ∈ r.features) :
    (∃ p ∈ parts, a.excludes p.index caller = false ∧
      ∃ h held, Derived options p.unit h held caller callee kind confidence) ∨
      Derived options (facts a (inOrder parts)) r.hierarchy r.held caller callee kind
        confidence := by
  refine ((call_mem_merged_iff hparts r).mp hcall).imp_left ?_
  rintro ⟨p, hp, hx⟩
  obtain ⟨hkeeps, r', hderived⟩ := (call_mem_taken_iff (hparts p hp)).mp hx
  exact ⟨p, List.mem_mergeSort.mp hp, excludes_of_keepsCall hkeeps, _, _, hderived⟩

theorem accounts_of_resolution
    (hparts : ∀ p ∈ inOrder parts, UnitGraph.Analysed options p.index p.unit p)
    (r : Resolution options (facts a (inOrder parts)) (gather (inOrder parts) (taken a)))
    (hfeatures : g.features = r.features)
    (hreports : ∀ caller text reason, g.Unresolved caller text reason ↔
      ∃ site ∈ (facts a (inOrder parts)).callSites, site.caller = caller ∧
        Unsettled r.hierarchy r.held site text reason) :
    Accounts a parts r.hierarchy r.held g where
  called site hsite target kind confidence hcalls := by
    rw [hfeatures, call_mem_merged_iff hparts r]
    exact Or.inr (.site (mem_callSites_iff_keepsSite.mpr hsite) hcalls)
  reported site hsite slot kind receiver hindirect hnone := by
    obtain ⟨reason, hunsettled⟩ := exists_unsettled hindirect hnone
    exact ⟨reason, (hreports _ _ _).mpr
      ⟨site, mem_callSites_iff_keepsSite.mpr hsite, rfl, hunsettled⟩⟩
  unsettled caller text reason hreport := by
    obtain ⟨site, hsite, hunsettled⟩ := (hreports caller text reason).mp hreport
    exact ⟨site, mem_callSites_iff_keepsSite.mp hsite, hunsettled⟩
  direct caller callee confidence hcall := by
    rw [hfeatures] at hcall
    -- the call was taken over from a unit, or a site among all the facts makes it
    rcases derived_of_call_mem hparts r hcall with ⟨p, hp, hkept, h, held, hderived⟩ | hderived
    · obtain ⟨hcertain, site, hsite, rfl, htarget⟩ := hderived.exists_direct
      exact ⟨hcertain, site, ⟨p, hp, hsite, hkept⟩, rfl, htarget⟩
    · obtain ⟨hcertain, site, hsite, hcaller, htarget⟩ := hderived.exists_direct
      exact ⟨hcertain, site, mem_callSites_iff_keepsSite.mp hsite, hcaller, htarget⟩
  indirect caller callee kind confidence hkind hcall := by
    rw [hfeatures] at hcall
    rcases derived_of_call_mem hparts r hcall with ⟨_, _, _, _, _, hderived⟩ | hderived
    · exact hderived.eq_may_of_indirect hkind
    · exact hderived.eq_may_of_indirect hkind

/-- A merge accounts for all call sites: those whose caller is not an excluded definition of their
unit have their calls in the graph, by the hierarchy and the least solution of all the facts that
are kept, or are reported.  Indices need not be distinct. -/
theorem accounts_of_run (hparts : UnitGraph.analyseIndexed options cancelled units = .ok parts)
    (hrun : (run digest options cancelled parts).2 = .ok (g, stats)) :
    ∃ h held,
      Hierarchy.build (mergedFacts digest parts).classes (mergedFacts digest parts).functions =
        .ok h ∧
      IsLeast {F | Solves (PointerCalls.asked h options.returnFlow (mergedFacts digest parts)
        Set.univ) id F} held ∧
      Accounts (.ofUnits digest (inOrder parts)) parts h held g := by
  have hanalysed : ∀ p ∈ inOrder parts, UnitGraph.Analysed options p.index p.unit p := fun p hp =>
    UnitGraph.analysed_of_mem (UnitGraph.analysed_of_analyseIndexed hparts)
      (List.mem_mergeSort.mp hp)
  have hwell : ∀ p ∈ parts, p.graph.WellFormed := fun p hp =>
    (hanalysed p (List.mem_mergeSort.mpr hp)).wellFormed
  obtain ⟨r, hfeatures⟩ := exists_resolution_of_run hwell hrun
  exact ⟨r.hierarchy, r.held, r.build, r.isLeast_univ, accounts_of_resolution hanalysed r hfeatures
    fun _ _ _ => unresolved_of_run hwell hrun r⟩

/-- One unit calls through two slots.  Another unit sets one of them, and has a definition of the
caller that differs and is excluded. -/
def redefinedCaller : List (Nat × TranslationUnit) :=
  [(0, { name := "use"
         functions := [{ key := "main", defined := true, bodyHash := some "first" }]
         callSites := [{ caller := "main", target := .pointer (.global "callback") },
           { caller := "main", target := .pointer (.global "unset") }] }),
    (1, { name := "set"
          functions := [{ key := "main", defined := true, bodyHash := some "second" },
            { key := "handler", defined := true, bodyHash := some "handler" }]
          callSites := [{ caller := "main", target := .direct "handler" }]
          assignments := [{ destination := .global "callback", source := .function "handler" }] })]

theorem redefinedCaller_accounted : ∃ parts g stats,
    UnitGraph.analyseIndexed {} false redefinedCaller = .ok parts ∧
    (run id {} false parts).2 = .ok (g, stats) ∧
    g.calls = [⟨"main", "handler", .pointer, .may, none⟩] ∧
    g.unresolvedCalls =
      [⟨.unresolvedCall "main" (Slot.global "unset").text .emptyAliasSet, some "use"⟩] ∧
    ∃ h held,
      Hierarchy.build (mergedFacts id parts).classes (mergedFacts id parts).functions = .ok h ∧
      IsLeast {F | Solves (PointerCalls.asked h ({} : Options).returnFlow (mergedFacts id parts)
        Set.univ) id F} held ∧
      Accounts (.ofUnits id (inOrder parts)) parts h held g := by
  obtain ⟨parts, g, stats, hparts, hrun, hcalls, hreports⟩ : ∃ parts g stats,
      UnitGraph.analyseIndexed {} false redefinedCaller = .ok parts ∧
      (run id {} false parts).2 = .ok (g, stats) ∧
      g.calls = [⟨"main", "handler", .pointer, .may, none⟩] ∧
      g.unresolvedCalls =
        [⟨.unresolvedCall "main" (Slot.global "unset").text .emptyAliasSet, some "use"⟩] :=
    ⟨_, _, _, by cbv, by cbv, by cbv, by cbv⟩
  exact ⟨parts, g, stats, hparts, hrun, hcalls, hreports, accounts_of_run hparts hrun⟩

end Merge

end CallGraphs
