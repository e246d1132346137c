import CallGraphs.Proofs.Merge.Arbitration
import CallGraphs.Proofs.Merge.Sites
import Mathlib

/-!
# Definitions that lose

A definition that arbitration excludes goes through the whole analysis of its
unit before it is known to have lost.  Its facts move addresses through slots that
other functions read, make functions known, and give the unit edges that the merge
takes over.  None of it shows in the edges out of the function itself: whatever the
body of the losing definition says, these edges are the same
(`Merge.excludedBody_irrelevant`).

Two runs are compared, over units that differ in that one body
(`TranslationUnit.SameOutside`).  Arbitration comes to the same verdicts in both,
so the facts that are kept are the same, list by list, and with them the hierarchy
and what the slots hold.  An edge out of the function is either derived from these
facts or taken over from a unit whose definition is not excluded, which is a unit
that both runs have in common.
-/

namespace CallGraphs

open CallGraphs.Graph

/-! ## Units that differ in one body -/

namespace TranslationUnit

/-- Two units say the same outside the body of a function, whatever their names. -/
structure SameOutside (f : FunctionKey) (u u' : TranslationUnit) : Prop where
  functions : u.functions = u'.functions
  classes : u.classes = u'.classes
  callSites : u.callSites.filter (·.caller ≠ f) = u'.callSites.filter (·.caller ≠ f)
  assignments : u.assignments.filter (·.context ≠ some f) =
    u'.assignments.filter (·.context ≠ some f)
  lifetimeEvents : u.lifetimeEvents.filter (·.caller ≠ f) =
    u'.lifetimeEvents.filter (·.caller ≠ f)

namespace SameOutside

variable {f : FunctionKey} {u u' : TranslationUnit}

theorem refl (f : FunctionKey) (u : TranslationUnit) : u.SameOutside f u :=
  ⟨rfl, rfl, rfl, rfl, rfl⟩

theorem symm (h : u.SameOutside f u') : u'.SameOutside f u :=
  ⟨h.functions.symm, h.classes.symm, h.callSites.symm, h.assignments.symm, h.lifetimeEvents.symm⟩

theorem defines_iff (h : u.SameOutside f u') {key : FunctionKey} :
    u.Defines key ↔ u'.Defines key := by
  rw [Defines, Defines, h.functions]

end SameOutside

end TranslationUnit

/-- Where all that matters lies in a part of two lists that they have in common, nothing differs. -/
theorem filter_eq_of_filter_eq {α : Type} {p q : α → Bool} {l l' : List α}
    (hcommon : l.filter p = l'.filter p) (hqp : ∀ x, q x = true → p x = true) :
    l.filter q = l'.filter q := by
  have hboth : ∀ l : List α, l.filter q = (l.filter p).filter q := by
    intro l
    rw [List.filter_filter]
    refine List.filter_congr fun x _ => ?_
    cases hx : q x with
    | false => rfl
    | true => rw [hqp x hx, Bool.and_self]
  rw [hboth l, hboth l', hcommon]

namespace TranslationUnit.SameOutside

variable {f : FunctionKey} {u u' : TranslationUnit} (h : u.SameOutside f u')
include h

/-- The bodies of other functions are the same, line by line. -/
theorem lines_eq {key : FunctionKey} (hkey : key ≠ f) : Body.lines u key = Body.lines u' key := by
  have hsites : u.callSites.filter (·.caller = key) = u'.callSites.filter (·.caller = key) :=
    filter_eq_of_filter_eq h.callSites fun x hx => by simp_all
  have hassigned : u.assignments.filter (·.context = some key) =
      u'.assignments.filter (·.context = some key) :=
    filter_eq_of_filter_eq h.assignments fun x hx => by simp_all
  have hevents : u.lifetimeEvents.filter (·.caller = key) =
      u'.lifetimeEvents.filter (·.caller = key) :=
    filter_eq_of_filter_eq h.lifetimeEvents fun x hx => by simp_all
  rw [Body.lines, Body.lines, hsites, hassigned, hevents]

theorem fingerprint?_eq (digest : String → String) {key : FunctionKey} (hkey : key ≠ f) :
    u.fingerprint? digest key = u'.fingerprint? digest key := by
  rw [fingerprint?, fingerprint?, h.functions]
  refine Option.map_congr fun r hr => ?_
  have hr : r.key = key := by
    have := List.find?_some hr
    simp_all
  rw [Fingerprint.of, Fingerprint.of, Body.text, Body.text, h.lines_eq (hr ▸ hkey)]

end TranslationUnit.SameOutside

namespace Merge

open Arbitration

/-- Two analysed units stand at the same place, and are one and the same unless they stand at the
place of the unit that loses. -/
structure Corresponds (i : Nat) (f : FunctionKey) (p q : UnitGraph) : Prop where
  index : p.index = q.index
  unit : p.unit.SameOutside f q.unit
  eq_of_ne : p.index ≠ i → p = q

namespace Corresponds

variable {i : Nat} {f : FunctionKey} {p q : UnitGraph}

theorem refl (i : Nat) (f : FunctionKey) (p : UnitGraph) : Corresponds i f p p :=
  ⟨rfl, .refl f p.unit, fun _ => rfl⟩

theorem symm (h : Corresponds i f p q) : Corresponds i f q p :=
  ⟨h.index.symm, h.unit.symm, fun hne => (h.eq_of_ne (h.index ▸ hne)).symm⟩

theorem fingerprint?_eq (h : Corresponds i f p q) (digest : String → String) {key : FunctionKey}
    (hkey : key ≠ f ∨ p.index ≠ i) :
    p.unit.fingerprint? digest key = q.unit.fingerprint? digest key := by
  rcases hkey with hkey | hne
  · exact h.unit.fingerprint?_eq digest hkey
  · rw [h.eq_of_ne hne]

end Corresponds

section Correspondence

variable {digest : String → String} {i : Nat} {f : FunctionKey} {parts parts' : List UnitGraph}
  (hc : List.Forall₂ (Corresponds i f) parts parts')

include hc in
theorem exists_corresponding {p : UnitGraph} (hp : p ∈ parts) :
    ∃ q ∈ parts', Corresponds i f p q := by
  induction hc with
  | nil => exact absurd hp List.not_mem_nil
  | cons hhead _ ih =>
      rcases List.mem_cons.mp hp with rfl | hp
      · exact ⟨_, List.mem_cons_self, hhead⟩
      · obtain ⟨q, hq, hpq⟩ := ih hp
        exact ⟨q, List.mem_cons_of_mem _ hq, hpq⟩

theorem forall₂_symm (hc : List.Forall₂ (Corresponds i f) parts parts') :
    List.Forall₂ (Corresponds i f) parts' parts :=
  hc.flip.imp fun _ _ h => h.symm

/-- Units that stand at the same places are sorted in the same way. -/
theorem forall₂_inOrder (hc : List.Forall₂ (Corresponds i f) parts parts') :
    List.Forall₂ (Corresponds i f) (inOrder parts) (inOrder parts') := by
  -- the pairs, sorted, are the sorted lists paired
  have hpairs : ∀ x ∈ parts.zip parts', Corresponds i f x.1 x.2 :=
    fun x hx => (List.forall₂_iff_zip.mp hc).2 hx
  have hlength := hc.length_eq
  have hfirst : (parts.zip parts').map Prod.fst = parts := List.map_fst_zip hlength.le
  have hsecond : (parts.zip parts').map Prod.snd = parts' := List.map_snd_zip hlength.ge
  have hsorted := List.map_mergeSort (f := Prod.fst) (l := parts.zip parts')
    (r := fun x y : UnitGraph × UnitGraph => x.1.index ≤ y.1.index)
    (s := fun p q : UnitGraph => p.index ≤ q.index) (fun _ _ _ _ => rfl)
  have hsorted' := List.map_mergeSort (f := Prod.snd) (l := parts.zip parts')
    (r := fun x y : UnitGraph × UnitGraph => x.1.index ≤ y.1.index)
    (s := fun p q : UnitGraph => p.index ≤ q.index) fun x hx y hy => by
      rw [(hpairs x hx).index, (hpairs y hy).index]
  rw [hfirst] at hsorted
  rw [hsecond] at hsorted'
  rw [inOrder, inOrder, ← hsorted, ← hsorted', List.forall₂_map_left_iff,
    List.forall₂_map_right_iff, List.forall₂_same]
  exact fun x hx => hpairs x (List.mem_mergeSort.mp hx)

/-! ## The same verdicts -/

theorem FirstDefiner.corresponding (hc : List.Forall₂ (Corresponds i f) parts parts')
    {key : FunctionKey} {w w' : UnitGraph} (hw : FirstDefiner parts key w) (hmem : w' ∈ parts')
    (hww : Corresponds i f w w') : FirstDefiner parts' key w' := by
  refine ⟨hmem, hww.unit.defines_iff.mp hw.defines, fun q hq hdefines => ?_⟩
  obtain ⟨p, hp, hqp⟩ := exists_corresponding (forall₂_symm hc) hq
  rw [← hww.index, hqp.index]
  exact hw.least p hp (hqp.unit.defines_iff.mp hdefines)

/-- A unit whose definition is excluded is not the first to define the function. -/
theorem FirstDefiner.index_ne (hdistinct : (parts.map (·.index)).Nodup)
    (hlost : (ofUnits digest (inOrder parts)).excludes i f = true) {w : UnitGraph}
    (hw : FirstDefiner parts f w) : w.index ≠ i := by
  rintro rfl
  exact absurd (hlost.symm.trans (hw.not_excluded hdistinct)) (by simp)

theorem mem_excluded_of_corresponds (hc : List.Forall₂ (Corresponds i f) parts parts')
    (hdistinct : (parts.map (·.index)).Nodup) (hdistinct' : (parts'.map (·.index)).Nodup)
    (hlost : (ofUnits digest (inOrder parts)).excludes i f = true)
    (hlost' : (ofUnits digest (inOrder parts')).excludes i f = true) {j : Nat} {key : FunctionKey}
    (hexcluded : (j, key) ∈ (ofUnits digest (inOrder parts)).excluded) :
    (j, key) ∈ (ofUnits digest (inOrder parts')).excluded := by
  -- the verdict on the body that differs is given for both runs
  by_cases hown : key = f ∧ j = i
  · obtain ⟨rfl, rfl⟩ := hown
    exact of_decide_eq_true hlost'
  obtain ⟨w, p, hconflicts, rfl⟩ := (mem_excluded_iff hdistinct).mp hexcluded
  obtain ⟨q, hq, hpq⟩ := exists_corresponding hc hconflicts.mem
  obtain ⟨w', hw', hww⟩ := exists_corresponding hc hconflicts.first.mem
  have hother : key ≠ f ∨ p.index ≠ i := not_and_or.mp hown
  have hfirst : key ≠ f ∨ w.index ≠ i := by
    by_cases hkey : key = f
    · subst hkey
      exact Or.inr (hconflicts.first.index_ne hdistinct hlost)
    · exact Or.inl hkey
  refine (mem_excluded_iff hdistinct').mpr ⟨w', q, ⟨hconflicts.first.corresponding hc hw' hww, hq,
    hpq.unit.defines_iff.mp hconflicts.defines, ?_⟩, hpq.index.symm⟩
  rw [← hpq.fingerprint?_eq digest hother, ← hww.fingerprint?_eq digest hfirst]
  exact hconflicts.differs

/-- Both runs exclude the same definitions. -/
theorem excludes_eq_of_corresponds (hc : List.Forall₂ (Corresponds i f) parts parts')
    (hdistinct : (parts.map (·.index)).Nodup) (hdistinct' : (parts'.map (·.index)).Nodup)
    (hlost : (ofUnits digest (inOrder parts)).excludes i f = true)
    (hlost' : (ofUnits digest (inOrder parts')).excludes i f = true) :
    (ofUnits digest (inOrder parts)).excludes = (ofUnits digest (inOrder parts')).excludes := by
  funext j key
  refine decide_eq_decide.mpr ⟨fun h => ?_, fun h => ?_⟩
  · exact mem_excluded_of_corresponds hc hdistinct hdistinct' hlost hlost' h
  · exact mem_excluded_of_corresponds (forall₂_symm hc) hdistinct' hdistinct hlost' hlost h

end Correspondence

/-! ## The same facts -/

section Facts

variable {i : Nat} {f : FunctionKey} {a a' : Arbitration} (ha : a.excludes = a'.excludes)
  (hlost : a.excludes i f = true)
include ha hlost

/-- What is kept of two units that correspond is the same, up to their names. -/
theorem keptFacts_eq {p q : UnitGraph} (h : Corresponds i f p q) :
    { keptFacts a p with name := (keptFacts a' q).name } = keptFacts a' q := by
  by_cases hindex : p.index = i
  · have hbody : ∀ key, a.excludes p.index key = false → key ≠ f := by
      rintro _ hkept rfl
      exact absurd ((hindex ▸ hlost).symm.trans hkept) (by simp)
    have hsites : p.unit.callSites.filter (fun s => !a.excludes p.index s.caller) =
        q.unit.callSites.filter fun s => !a.excludes p.index s.caller :=
      filter_eq_of_filter_eq h.unit.callSites fun s hs => by
        simpa using hbody s.caller (by simpa using hs)
    have hassigned : p.unit.assignments.filter (fun x => !x.context.any (a.excludes p.index)) =
        q.unit.assignments.filter fun x => !x.context.any (a.excludes p.index) :=
      filter_eq_of_filter_eq h.unit.assignments fun x hx => by
        simp only [Bool.not_eq_true', ne_eq, decide_not, decide_eq_false_iff_not] at hx ⊢
        intro hcontext
        rw [hcontext, Option.any_some] at hx
        exact hbody f hx rfl
    have hevents : p.unit.lifetimeEvents.filter (fun e => !a.excludes p.index e.caller) =
        q.unit.lifetimeEvents.filter fun e => !a.excludes p.index e.caller :=
      filter_eq_of_filter_eq h.unit.lifetimeEvents fun e he => by
        simpa using hbody e.caller (by simpa using he)
    simp only [keptFacts, ← ha, ← h.index, hsites, hassigned, hevents, h.unit.functions,
      h.unit.classes]
  · obtain rfl := h.eq_of_ne hindex
    simp only [keptFacts, ha]

/-- The facts of all units, those of excluded definitions left out, are the same. -/
theorem facts_eq {parts parts' : List UnitGraph}
    (hc : List.Forall₂ (Corresponds i f) parts parts') : facts a parts = facts a' parts' := by
  have hfield : ∀ {β : Type} (field : TranslationUnit → List β),
      (∀ (u : TranslationUnit) name, field { u with name := name } = field u) →
      (parts.map (keptFacts a)).flatMap field = (parts'.map (keptFacts a')).flatMap field := by
    intro β field hname
    induction hc with
    | nil => rfl
    | @cons p q _ _ hhead _ ih =>
        have hpq : field (keptFacts a p) = field (keptFacts a' q) :=
          (hname _ _).symm.trans (congrArg field (keptFacts_eq ha hlost hhead))
        rw [List.map_cons, List.map_cons, List.flatMap_cons, List.flatMap_cons, ih, hpq]
  simp only [facts, joinFacts]
  rw [hfield (·.functions) fun _ _ => rfl, hfield (·.classes) fun _ _ => rfl,
    hfield (·.callSites) fun _ _ => rfl, hfield (·.assignments) fun _ _ => rfl,
    hfield (·.lifetimeEvents) fun _ _ => rfl]

/-- No edge out of the function is taken over from the unit that loses, and the other units are the
same. -/
theorem call_mem_taken_of_corresponds {p q : UnitGraph} (h : Corresponds i f p q)
    {callee : FunctionKey} {kind : EdgeKind} {confidence : Confidence}
    (hx : .call f callee kind confidence ∈ taken a p) :
    .call f callee kind confidence ∈ taken a' q := by
  have hkept : a.excludes p.index f = false := excludes_of_keepsCall hx.2
  have hne : p.index ≠ i := by
    rintro hindex
    exact absurd ((hindex ▸ hlost).symm.trans hkept) (by simp)
  obtain rfl := h.eq_of_ne hne
  refine ⟨hx.1, ?_⟩
  have hkeeps := hx.2
  simp only [Keeps, keepsCall] at hkeeps ⊢
  rwa [← ha]

end Facts

/-! ## Main statement -/

section Main

variable {digest : String → String} {options : Options} {cancelled : Bool} {i : Nat}
  {f : FunctionKey}

/-- The edges out of the function in one run are among those in the other. -/
theorem call_mem_of_corresponds {a a' : Arbitration} (ha : a.excludes = a'.excludes)
    (hlost : a.excludes i f = true) {parts parts' : List UnitGraph}
    (hc : List.Forall₂ (Corresponds i f) parts parts')
    (hparts : ∀ p ∈ parts, UnitGraph.Analysed options p.index p.unit p)
    (hparts' : ∀ p ∈ parts', UnitGraph.Analysed options p.index p.unit p)
    (r : Resolution options (facts a parts) (gather parts (taken a)))
    (r' : Resolution options (facts a' parts') (gather parts' (taken a')))
    {callee : FunctionKey} {kind : EdgeKind} {confidence : Confidence}
    (hx : .call f callee kind confidence ∈ r.features) :
    .call f callee kind confidence ∈ r'.features := by
  rw [call_mem_merged_iff hparts' r']
  refine ((call_mem_merged_iff hparts r).mp hx).imp ?_ fun hderived => ?_
  · rintro ⟨p, hp, hx⟩
    obtain ⟨q, hq, hpq⟩ := exists_corresponding hc hp
    exact ⟨q, hq, call_mem_taken_of_corresponds ha hlost hpq hx⟩
  · -- both resolutions are of the same facts
    have hfacts := facts_eq ha hlost hc
    generalize facts a' parts' = u' at r' hfacts
    subst hfacts
    rwa [← r.hierarchy_eq r', ← r.held_eq r']

/-- Units that are the same come to the same graphs. -/
theorem forall₂_analyseIndexed {before after : List (Nat × TranslationUnit)}
    {u u' : TranslationUnit} (hu : u.SameOutside f u') {parts parts' : List UnitGraph}
    (hparts : UnitGraph.analyseIndexed options cancelled (before ++ (i, u) :: after) = .ok parts)
    (hparts' : UnitGraph.analyseIndexed options cancelled (before ++ (i, u') :: after) =
      .ok parts') : List.Forall₂ (Corresponds i f) parts parts' := by
  have hanalysed := forall₂_of_mapM hparts
  have hanalysed' := forall₂_of_mapM hparts'
  clear hparts hparts'
  induction before generalizing parts parts' with
  | nil =>
      cases hanalysed with
      | cons hp hrest =>
      cases hanalysed' with
      | cons hq hrest' =>
      have hp := UnitGraph.analysed_of_analyse hp
      have hq := UnitGraph.analysed_of_analyse hq
      refine .cons ⟨hp.index.trans hq.index.symm, ?_, fun hne => absurd hp.index hne⟩ ?_
      · rw [hp.unit, hq.unit]
        exact hu
      · obtain rfl := List.right_unique_forall₂'
          (fun _ _ _ h h' => Except.ok.inj (h.symm.trans h')) hrest hrest'
        exact List.forall₂_same.mpr fun p _ => .refl i f p
  | cons unit before ih =>
      cases hanalysed with
      | cons hp hrest =>
      cases hanalysed' with
      | cons hq hrest' =>
      obtain rfl := Except.ok.inj (hp.symm.trans hq)
      exact .cons (.refl i f _) (ih hrest hrest')

/-- The facts of a body that loses do not show in the edges out of its function. -/
theorem excludedBody_irrelevant {before after : List (Nat × TranslationUnit)}
    {u u' : TranslationUnit} {parts parts' : List UnitGraph} {g g' : Graph}
    {stats stats' : MergeStats}
    (hdistinct : ((before ++ (i, u) :: after).map (·.1)).Nodup) (hu : u.SameOutside f u')
    (hparts : UnitGraph.analyseIndexed options cancelled (before ++ (i, u) :: after) = .ok parts)
    (hparts' : UnitGraph.analyseIndexed options cancelled (before ++ (i, u') :: after) = .ok parts')
    (hlost : (ofUnits digest (inOrder parts)).excludes i f = true)
    (hlost' : (ofUnits digest (inOrder parts')).excludes i f = true)
    (hrun : (run digest options cancelled parts).2 = .ok (g, stats))
    (hrun' : (run digest options cancelled parts').2 = .ok (g', stats'))
    (callee : FunctionKey) (kind : EdgeKind) (confidence : Confidence) :
    .call f callee kind confidence ∈ g.features ↔
      .call f callee kind confidence ∈ g'.features := by
  have hc := forall₂_analyseIndexed hu hparts hparts'
  have hanalysed : ∀ p ∈ parts, UnitGraph.Analysed options p.index p.unit p := fun _ hp =>
    UnitGraph.analysed_of_mem (UnitGraph.analysed_of_analyseIndexed hparts) hp
  have hanalysed' : ∀ p ∈ parts', UnitGraph.Analysed options p.index p.unit p := fun _ hp =>
    UnitGraph.analysed_of_mem (UnitGraph.analysed_of_analyseIndexed hparts') hp
  have hnodup : (parts.map (·.index)).Nodup := by
    rw [← UnitGraph.map_of_analysed (UnitGraph.analysed_of_analyseIndexed hparts),
      List.map_map] at hdistinct
    exact hdistinct
  have hnodup' : (parts'.map (·.index)).Nodup := by
    have hindices : parts.map (·.index) = parts'.map (·.index) :=
      List.forall₂_eq_eq_eq ▸ List.forall₂_map_left_iff.mpr
        (List.forall₂_map_right_iff.mpr (hc.imp fun _ _ h => h.index))
    exact hindices ▸ hnodup
  have ha := excludes_eq_of_corresponds hc hnodup hnodup' hlost hlost'
  obtain ⟨r, hr⟩ := exists_resolution_of_run (fun p hp => (hanalysed p hp).wellFormed) hrun
  obtain ⟨r', hr'⟩ := exists_resolution_of_run (fun p hp => (hanalysed' p hp).wellFormed) hrun'
  have hsorted : ∀ p ∈ inOrder parts, UnitGraph.Analysed options p.index p.unit p :=
    fun p hp => hanalysed p (List.mem_mergeSort.mp hp)
  have hsorted' : ∀ p ∈ inOrder parts', UnitGraph.Analysed options p.index p.unit p :=
    fun p hp => hanalysed' p (List.mem_mergeSort.mp hp)
  rw [hr, hr']
  constructor
  · intro hx
    exact call_mem_of_corresponds ha hlost (forall₂_inOrder hc) hsorted hsorted' r r' hx
  · intro hx
    exact call_mem_of_corresponds ha.symm hlost' (forall₂_inOrder (forall₂_symm hc)) hsorted'
      hsorted r' r hx

/-- A unit in which `f` calls through a variable. -/
def winningUnit : TranslationUnit where
  name := "first"
  functions := [{ key := "f", defined := true, bodyHash := some "a" }]
  callSites := [{ caller := "f", target := .pointer (.global "callback") }]
  assignments := [{ source := .function "g", destination := .global "callback" }]

/-- A unit with another `f`, which calls and sets as given, and a `main` that calls through the same
variable. -/
def losingUnit (calls sets : List FunctionKey) : TranslationUnit where
  name := "second"
  functions := [{ key := "f", defined := true, bodyHash := some "b" },
    { key := "main", defined := true }]
  callSites := { caller := "main", target := .pointer (.global "callback") } ::
    calls.map fun key => { caller := "f", target := .direct key }
  assignments := sets.map fun key =>
    { source := .function key, destination := .global "callback", context := some "f" }

/-- What the losing `f` does shows in the edges of `main`, and in those of `f` it does not. -/
theorem winningUnit_losingUnit : ∃ parts parts' g g' stats stats',
    UnitGraph.analyseIndexed {} false [(1, winningUnit), (2, losingUnit ["h"] ["h"])] = .ok parts ∧
    UnitGraph.analyseIndexed {} false [(1, winningUnit), (2, losingUnit [] [])] = .ok parts' ∧
    (run id {} false parts).2 = .ok (g, stats) ∧ (run id {} false parts').2 = .ok (g', stats') ∧
    g.calls ≠ g'.calls ∧
    ∀ callee kind confidence, .call "f" callee kind confidence ∈ g.features ↔
      .call "f" callee kind confidence ∈ g'.features := by
  obtain ⟨parts, parts', g, g', stats, stats', hparts, hparts', hrun, hrun', hdiffers, hlost,
      hlost'⟩ : ∃ parts parts' g g' stats stats',
      UnitGraph.analyseIndexed {} false [(1, winningUnit), (2, losingUnit ["h"] ["h"])] =
        .ok parts ∧
      UnitGraph.analyseIndexed {} false [(1, winningUnit), (2, losingUnit [] [])] = .ok parts' ∧
      (run id {} false parts).2 = .ok (g, stats) ∧ (run id {} false parts').2 = .ok (g', stats') ∧
      g.calls ≠ g'.calls ∧ (ofUnits id (inOrder parts)).excludes 2 "f" = true ∧
      (ofUnits id (inOrder parts')).excludes 2 "f" = true :=
    ⟨_, _, _, _, _, _, by cbv, by cbv, by cbv, by cbv, by decide, by cbv, by cbv⟩
  have hu : (losingUnit ["h"] ["h"]).SameOutside "f" (losingUnit [] []) :=
    ⟨rfl, rfl, by decide, by decide, by decide⟩
  exact ⟨parts, parts', g, g', stats, stats', hparts, hparts', hrun, hrun', hdiffers,
    @excludedBody_irrelevant id {} false 2 "f" [(1, winningUnit)] [] _ _ _ _ _ _ _ _ (by decide) hu
      hparts hparts' hlost hlost' hrun hrun'⟩

end Main

end Merge

end CallGraphs
