import CallGraphs.Proofs.Analysis.Growth
import CallGraphs.Proofs.Analysis.Marks
import CallGraphs.Proofs.Classes.Reordering

/-!
# Facts in another order

Two units that say the same (`TranslationUnit.Alike`), over hierarchies that are
parts of each other (`Hierarchy.Alike`), ask for the same constraints and come to
the same calls and marks.  All that the passes add is said by keys, and each
piece of it depends only on which facts there are; so it is enough to go through
the pieces.
-/

namespace CallGraphs

open CallGraphs.Flow

theorem gather_congr {α : Type} {l l' : List α} {S S' : α → Set Feature}
    (hl : ∀ a, a ∈ l ↔ a ∈ l') (hS : ∀ a, S a = S' a) : gather l S = gather l' S' := by
  ext x
  simp only [gather, Set.mem_ofPred_eq, hl, hS]

theorem Scope.ofCalls_congr {callees callees' : List FunctionKey}
    (hmem : ∀ f, f ∈ callees ↔ f ∈ callees') (caller : FunctionKey) (kind : EdgeKind)
    (confidence : Confidence) :
    Scope.ofCalls caller callees kind confidence = Scope.ofCalls caller callees' kind confidence :=
  gather_congr hmem fun _ => rfl

namespace TranslationUnit

/-- Two units say the same, in whatever order. -/
structure Alike (u u' : TranslationUnit) : Prop where
  functions : ∀ r, r ∈ u.functions ↔ r ∈ u'.functions
  classes : ∀ c, c ∈ u.classes ↔ c ∈ u'.classes
  callSites : ∀ site, site ∈ u.callSites ↔ site ∈ u'.callSites
  assignments : ∀ a, a ∈ u.assignments ↔ a ∈ u'.assignments
  lifetimeEvents : ∀ e, e ∈ u.lifetimeEvents ↔ e ∈ u'.lifetimeEvents

namespace Alike

variable {u u' : TranslationUnit} (hu : u.Alike u')
include hu

theorem symm : u'.Alike u where
  functions r := (hu.functions r).symm
  classes c := (hu.classes c).symm
  callSites site := (hu.callSites site).symm
  assignments a := (hu.assignments a).symm
  lifetimeEvents e := (hu.lifetimeEvents e).symm

theorem allLifetimeEvents (e : LifetimeEvent) :
    e ∈ u.allLifetimeEvents ↔ e ∈ u'.allLifetimeEvents := by
  simp only [TranslationUnit.allLifetimeEvents, List.mem_append, List.mem_filterMap,
    hu.lifetimeEvents, hu.callSites]

theorem spelledOut (x : FunctionKey × Phase) :
    x ∈ LifetimeCalls.spelledOut u.allLifetimeEvents ↔
      x ∈ LifetimeCalls.spelledOut u'.allLifetimeEvents := by
  simp only [LifetimeCalls.spelledOut, List.mem_map, List.mem_filter, hu.allLifetimeEvents]

end Alike

end TranslationUnit

section Alike

variable {h h' : Hierarchy} (ha : h.Alike h') {u u' : TranslationUnit} (hu : u.Alike u')
  (shown : Set Feature)

/-! ## Virtual calls -/

namespace VirtualCalls

include ha in
theorem ofSite_eq (site : CallSite) : ofSite h site = ofSite h' site := by
  rw [ofSite, ofSite]
  cases site.target with
  | virtual receiver method => simp only [ha.agree.dispatch_eq]
  | _ => rfl

include ha hu in
theorem added_eq : added h u = added h' u' := by
  rw [added, added, ofLinks, ofLinks, ha.agree.overrides_eq,
    gather_congr hu.callSites (ofSite_eq ha)]

include ha in
theorem marked_eq : marked h shown = marked h' shown := by
  rw [marked, marked, ha.agree.virtuals_eq, ha.agree.overrides_eq]

end VirtualCalls

/-! ## Pointers -/

namespace PointerCalls

variable (returnFlow : ReturnFlow)

section Pieces

include ha

theorem originOf_eq (source : PointerSource) :
    originOf h returnFlow source = originOf h' returnFlow source := by
  cases source with
  | slot slot => rw [originOf, originOf, ha.canonical_eq]
  | _ => rfl

theorem originsOf_eq (args : List (Option PointerSource)) :
    originsOf h returnFlow args = originsOf h' returnFlow args := by
  rw [originsOf, originsOf, funext (originOf_eq ha returnFlow)]

theorem ofRecord_eq (r : FunctionRecord) : ofRecord h returnFlow r = ofRecord h' returnFlow r := by
  have hdefault : ofDefault h returnFlow r.key = ofDefault h' returnFlow r.key := by
    funext d
    rw [ofDefault, ofDefault, originOf_eq ha]
  rw [ofRecord, ofRecord, hdefault]

theorem ofAssignment_eq (a : Assignment) :
    ofAssignment h returnFlow a = ofAssignment h' returnFlow a := by
  rw [ofAssignment, ofAssignment, originOf_eq ha, ha.canonical_eq]

theorem ofSite_eq (site : CallSite) : ofSite h returnFlow site = ofSite h' returnFlow site := by
  rw [ofSite, ofSite]
  cases site.target with
  | virtual receiver method => simp only [ha.agree.dispatch_eq, originsOf_eq ha]
  | _ => simp only [ha.canonical_eq, originsOf_eq ha]

theorem siteNodes_eq (site : CallSite) : siteNodes h site = siteNodes h' site := by
  rw [siteNodes, siteNodes]
  cases site.target with
  | virtual receiver method => simp only [ha.agree.dispatch_eq]
  | _ => rfl

theorem siteLambdas_eq (site : CallSite) : siteLambdas h site = siteLambdas h' site := by
  rw [siteLambdas, siteLambdas]
  cases site.target with
  | virtual receiver method => simp only [ha.agree.dispatch_eq]
  | _ => rfl

theorem ofIndirect_eq (F : Family FunctionKey) (site : CallSite) :
    ofIndirect h F site = ofIndirect h' F site := by
  have hcandidates : ∀ kind receiver f,
      candidates h kind receiver f = candidates h' kind receiver f := by
    intro kind receiver f
    cases kind with
    | memberPointer => exact ha.agree.memberPointerTargets_eq f receiver
    | _ => rfl
  simp only [ofIndirect, hcandidates, ha.canonical_eq]

end Pieces

include ha hu

/-- The same facts ask for the same constraints. -/
theorem asked_eq : asked h returnFlow u shown = asked h' returnFlow u' shown := by
  ext c
  simp only [asked, Set.mem_ofPred_eq, List.mem_flatMap, hu.functions, hu.assignments,
    hu.callSites, ofRecord_eq ha, ofAssignment_eq ha, ofSite_eq ha, ha.agree.virtuals_eq,
    ha.agree.overriders_eq]

theorem referred_eq : referred h u = referred h' u' := by
  rw [referred, referred, gather_congr hu.functions fun _ => rfl,
    gather_congr hu.assignments fun _ => rfl, gather_congr hu.callSites (siteNodes_eq ha)]

theorem lambdas_eq : lambdas h u = lambdas h' u' := by
  ext f
  simp only [lambdas, Set.mem_ofPred_eq, hu.functions, hu.assignments, hu.callSites,
    siteLambdas_eq ha]

end PointerCalls

/-! ## Lifetimes -/

namespace LifetimeCalls

include ha in
theorem eventTargets_eq {e : LifetimeEvent} (hknown : h.contains e.className = true) :
    (∀ f, f ∈ (eventTargets h e).1 ↔ f ∈ (eventTargets h' e).1) ∧
      (eventTargets h e).2 = (eventTargets h' e).2 := by
  have hknown' := ha.forth.classes.contains hknown
  obtain ⟨hsub, hmay⟩ := eventTargets_within ha.forth hknown
  obtain ⟨hsub', hmay'⟩ := eventTargets_within ha.back hknown'
  refine ⟨fun f => ⟨fun hf => hsub hf, fun hf => hsub' hf⟩, ?_⟩
  cases hc : (eventTargets h e).2 with
  | may => exact (hmay hc).symm
  | definite =>
      cases hc' : (eventTargets h' e).2 with
      | definite => rfl
      | may => exact absurd ((hmay' hc').symm.trans hc) (by simp)

include ha in
theorem ofEvent_eq (e : LifetimeEvent) : ofEvent h e = ofEvent h' e := by
  ext x
  simp only [ofEvent, Set.mem_ofPred_eq, ← ha.agree.contains_eq]
  refine and_congr_right fun hknown => ?_
  obtain ⟨htargets, hconfidence⟩ := eventTargets_eq ha hknown
  rw [hconfidence, Scope.ofCalls_congr htargets]

theorem ofBody_congr {explicit explicit' : List (FunctionKey × Phase)}
    (hexplicit : ∀ x, x ∈ explicit ↔ x ∈ explicit') {targets targets' : List FunctionKey}
    (htargets : ∀ f, f ∈ targets ↔ f ∈ targets') (phase : Phase) (function : FunctionKey) :
    ofBody shown explicit phase targets function =
      ofBody shown explicit' phase targets' function := by
  ext x
  simp only [ofBody, Set.mem_ofPred_eq, hexplicit, Scope.ofCalls_congr htargets]

include ha hu

theorem ofBodies_eq (c : ClassRecord) :
    ofBodies h shown (spelledOut u.allLifetimeEvents) c =
      ofBodies h' shown (spelledOut u'.allLifetimeEvents) c := by
  refine congrArg₂ _ (gather_congr (fun _ => Iff.rfl) fun f => ?_)
    (gather_congr (fun _ => Iff.rfl) fun f => ?_)
  · exact ofBody_congr shown hu.spelledOut (fun _ => ha.mem_partDestroyTargets_iff) .destroy f
  · exact ofBody_congr shown hu.spelledOut (fun _ => ha.mem_partConstructTargets_iff) .construct f

theorem added_eq (options : Options) : added options h u shown = added options h' u' shown := by
  rw [added, added, gather_congr hu.allLifetimeEvents (ofEvent_eq ha),
    gather_congr (fun _ => ha.mem_records_iff) (ofBodies_eq ha hu shown)]

end LifetimeCalls

end Alike

/-! ## Resolutions -/

namespace Resolution

variable {options : Options} {u u' : TranslationUnit} {shown : Set Feature}
  (r : Resolution options u shown) (r' : Resolution options u' shown) (hu : u.Alike u')
include hu

theorem hierarchy_alike (hagree : RecordsAgree u.classes)
    (hlisted : Hierarchy.ListedByOneClass u.classes) : r.hierarchy.Alike r'.hierarchy :=
  Hierarchy.alike_of_build r.build r'.build hu.classes hu.functions hagree hlisted

/-- Whatever the order of the facts, they come to the same. -/
theorem features_eq (ha : r.hierarchy.Alike r'.hierarchy) : r.features = r'.features := by
  have hheld : r.held = r'.held := by
    refine r.isLeast.unique ?_
    rw [VirtualCalls.added_eq ha hu, PointerCalls.referred_eq ha hu,
      PointerCalls.asked_eq ha hu]
    exact r'.isLeast
  have hcalled : r.called = r'.called := by
    rw [called, called, hheld, VirtualCalls.added_eq ha hu, PointerCalls.referred_eq ha hu,
      gather_congr hu.callSites (PointerCalls.ofIndirect_eq ha r'.held)]
  rw [features, features, hcalled, LifetimeCalls.added_eq ha hu]

end Resolution

end CallGraphs
