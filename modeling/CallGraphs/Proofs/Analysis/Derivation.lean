import CallGraphs.Proofs.Analysis.Resolution
import CallGraphs.Proofs.Classes.Overriding
import Mathlib.Order.Bounds.Basic

/-!
# Why a call is in the graph

The calls of a graph by their causes.  A call site calls a function directly,
by dispatch or through a slot (`SiteCalls`); an object that begins or ends its
life calls constructors and destructors, and so do the bodies of these for the
parts of the object (`PartCalls`).  `Derived` puts the causes together.  It
speaks of the facts, the hierarchy and what the slots hold, and not of graphs
or of the order of passes.

A resolution shows the calls it starts from and those that are derived
(`Resolution.call_mem_features_iff`).  What the slots hold is the same whatever
a resolution starts from (`Resolution.isLeast_univ`): the constraints depend on
the graph only through the overriders in it, and they are in it all.
-/

namespace CallGraphs

open CallGraphs.Flow

/-! ## Causes -/

/-- What a call site calls if the slots hold so much, by which mechanism and how certainly. -/
inductive SiteCalls (h : Hierarchy) (held : Family FunctionKey) (site : CallSite) :
    FunctionKey → EdgeKind → Confidence → Prop
  | direct {callee : FunctionKey} : site.target = .direct callee →
      SiteCalls h held site callee .direct .definite
  | dispatched {receiver method : String} {d : Dispatch} {target : FunctionKey} :
      site.target = .virtual receiver method → h.dispatch receiver method = .ok d →
      target ∈ d.targets → SiteCalls h held site target .virtual d.confidence
  /-- A method that cannot be found is made up from the two names. -/
  | madeUp {receiver method : String} {failure : DispatchFailure} :
      site.target = .virtual receiver method → h.dispatch receiver method = .error failure →
      SiteCalls h held site (VirtualCalls.standIn receiver method) .virtual .definite
  | pointer {slot : Slot} {target : FunctionKey} : site.target = .pointer slot →
      .function target ∈ held (h.canonical slot) → SiteCalls h held site target .pointer .may
  | memberPointer {slot : Slot} {receiver : Option String} {f target : FunctionKey} :
      site.target = .memberPointer slot receiver → .function f ∈ held (h.canonical slot) →
      target ∈ h.memberPointerTargets f receiver →
      SiteCalls h held site target .memberPointer .may

/-- What a constructor or destructor calls for the parts of its object. -/
inductive PartCalls (h : Hierarchy) : Phase → FunctionKey → FunctionKey → Prop
  | destroy {c : ClassRecord} {d : DestructorDecl} {target : FunctionKey} : c ∈ h.records →
      c.destructor = some d → target ∈ h.partDestroyTargets c.key →
      PartCalls h .destroy d.function target
  | construct {c : ClassRecord} {k : ConstructorDecl} {target : FunctionKey} : c ∈ h.records →
      k ∈ c.constructors → target ∈ h.partConstructTargets c.key →
      PartCalls h .construct k.function target

/-- The unit has the body of a function. -/
def TranslationUnit.Defines (u : TranslationUnit) (f : FunctionKey) : Prop :=
  ∃ r ∈ u.functions, r.defined = true ∧ r.key = f

/-- The calls that follow from the facts of a unit if the slots hold so much. -/
inductive Derived (options : Options) (u : TranslationUnit) (h : Hierarchy)
    (held : Family FunctionKey) : FunctionKey → FunctionKey → EdgeKind → Confidence → Prop
  | site {site : CallSite} {target : FunctionKey} {kind : EdgeKind} {confidence : Confidence} :
      site ∈ u.callSites → SiteCalls h held site target kind confidence →
      Derived options u h held site.caller target kind confidence
  | event {e : LifetimeEvent} {target : FunctionKey} : options.captureLifetimes = true →
      e ∈ u.allLifetimeEvents → h.contains e.className = true →
      target ∈ (LifetimeCalls.eventTargets h e).1 →
      Derived options u h held e.caller target .implicit (LifetimeCalls.eventTargets h e).2
  /-- A body that does not spell out what it does to the parts of its object. -/
  | part {phase : Phase} {f target : FunctionKey} : options.captureLifetimes = true →
      u.Defines f → (f, phase) ∉ LifetimeCalls.spelledOut u.allLifetimeEvents →
      PartCalls h phase f target → Derived options u h held f target .implicit .definite

namespace Derived

variable {options : Options} {u : TranslationUnit} {h : Hierarchy} {held : Family FunctionKey}
  {a b : FunctionKey} {k : EdgeKind} {c : Confidence}

/-- A direct call comes from a site that names its callee, and it is certain. -/
theorem exists_direct (hderived : Derived options u h held a b .direct c) :
    c = .definite ∧ ∃ site ∈ u.callSites, site.caller = a ∧ site.target = .direct b := by
  cases hderived with
  | site hsite hcalls =>
      cases hcalls with
      | direct htarget => exact ⟨rfl, _, hsite, rfl, htarget⟩

/-- A call through a slot is never certain. -/
theorem eq_may_of_indirect (hderived : Derived options u h held a b k c)
    (hk : k = .pointer ∨ k = .memberPointer) : c = .may := by
  cases hderived with
  | site _ hcalls =>
      cases hcalls with
      | pointer | memberPointer => rfl
      | direct | dispatched | madeUp => exact absurd hk (by simp)
  | event | part => exact absurd hk (by simp)

end Derived

/-! ## Calls among features -/

section Features

variable {a b : FunctionKey} {k : EdgeKind} {c : Confidence}

theorem call_mem_ofCall {caller callee : FunctionKey} {kind : EdgeKind} {confidence : Confidence} :
    .call a b k c ∈ Scope.ofCall caller callee kind confidence ↔
      a = caller ∧ b = callee ∧ k = kind ∧ c = confidence := by
  simp [Scope.ofCall]

theorem call_mem_ofCalls {caller : FunctionKey} {callees : List FunctionKey} {kind : EdgeKind}
    {confidence : Confidence} : .call a b k c ∈ Scope.ofCalls caller callees kind confidence ↔
      a = caller ∧ b ∈ callees ∧ k = kind ∧ c = confidence := by
  simp only [Scope.ofCalls, gather, Set.mem_ofPred_eq, call_mem_ofCall]
  constructor
  · rintro ⟨callee, hmem, ha, rfl, hk, hc⟩
    exact ⟨ha, hmem, hk, hc⟩
  · rintro ⟨ha, hmem, hk, hc⟩
    exact ⟨b, hmem, ha, rfl, hk, hc⟩

variable {h : Hierarchy} {held : Family FunctionKey} {site : CallSite} {u : TranslationUnit}

variable (h held) in
theorem siteCalls_of_direct (hx : .call a b k c ∈ DirectCalls.ofSite site) :
    a = site.caller ∧ SiteCalls h held site b k c := by
  rw [DirectCalls.ofSite] at hx
  split at hx
  · next callee htarget =>
    obtain ⟨rfl, hb, rfl, rfl⟩ := call_mem_ofCalls.mp hx
    obtain rfl := List.mem_singleton.mp hb
    exact ⟨rfl, .direct htarget⟩
  · exact absurd hx (Set.notMem_empty _)

variable (held) in
theorem siteCalls_of_virtual (hx : .call a b k c ∈ VirtualCalls.ofSite h site) :
    a = site.caller ∧ SiteCalls h held site b k c := by
  rw [VirtualCalls.ofSite] at hx
  split at hx
  · next receiver method htarget =>
    split at hx
    · next d hd =>
      obtain ⟨rfl, hb, rfl, rfl⟩ := call_mem_ofCalls.mp hx
      exact ⟨rfl, .dispatched htarget hd hb⟩
    · next failure hd =>
      obtain ⟨rfl, rfl, rfl, rfl⟩ := call_mem_ofCall.mp hx
      exact ⟨rfl, .madeUp htarget hd⟩
  · exact absurd hx (Set.notMem_empty _)

theorem siteCalls_of_indirect (hx : .call a b k c ∈ PointerCalls.ofIndirect h held site) :
    a = site.caller ∧ SiteCalls h held site b k c := by
  rw [PointerCalls.ofIndirect, PointerCalls.indirect?] at hx
  cases htarget : site.target with
  | pointer slot =>
      rw [htarget] at hx
      obtain ⟨f, target, hf, hcandidate, hx⟩ := hx
      obtain ⟨rfl, rfl, rfl, rfl⟩ := call_mem_ofCall.mp hx
      obtain rfl := List.mem_singleton.mp hcandidate
      exact ⟨rfl, .pointer htarget hf⟩
  | memberPointer slot receiver =>
      rw [htarget] at hx
      obtain ⟨f, target, hf, hcandidate, hx⟩ := hx
      obtain ⟨rfl, rfl, rfl, rfl⟩ := call_mem_ofCall.mp hx
      exact ⟨rfl, .memberPointer htarget hf hcandidate⟩
  | _ =>
      rw [htarget] at hx
      exact absurd hx (Set.notMem_empty _)

/-- Whatever a site calls, one of the three passes for sites adds. -/
theorem SiteCalls.mem (hcalls : SiteCalls h held site b k c) :
    .call site.caller b k c ∈ DirectCalls.ofSite site ∨
      .call site.caller b k c ∈ VirtualCalls.ofSite h site ∨
      .call site.caller b k c ∈ PointerCalls.ofIndirect h held site := by
  cases hcalls with
  | direct htarget =>
      left
      rw [DirectCalls.ofSite, htarget]
      exact call_mem_ofCalls.mpr ⟨rfl, List.mem_singleton_self b, rfl, rfl⟩
  | dispatched htarget hd hmem =>
      right; left
      simp only [VirtualCalls.ofSite, htarget, hd]
      exact call_mem_ofCalls.mpr ⟨rfl, hmem, rfl, rfl⟩
  | madeUp htarget hd =>
      right; left
      simp only [VirtualCalls.ofSite, htarget, hd]
      exact call_mem_ofCall.mpr ⟨rfl, rfl, rfl, rfl⟩
  | pointer htarget hf =>
      right; right
      rw [PointerCalls.ofIndirect, PointerCalls.indirect?, htarget]
      exact ⟨b, b, hf, List.mem_singleton_self b, call_mem_ofCall.mpr ⟨rfl, rfl, rfl, rfl⟩⟩
  | @memberPointer _ _ f _ htarget hf hmem =>
      right; right
      rw [PointerCalls.ofIndirect, PointerCalls.indirect?, htarget]
      exact ⟨f, b, hf, hmem, call_mem_ofCall.mpr ⟨rfl, rfl, rfl, rfl⟩⟩

theorem partCalls_iff {shown : Set Feature} {explicit : List (FunctionKey × Phase)} :
    .call a b k c ∈ gather h.records (LifetimeCalls.ofBodies h shown explicit) ↔
      k = .implicit ∧ c = .definite ∧ .body a ∈ shown ∧ ∃ phase, (a, phase) ∉ explicit ∧
        PartCalls h phase a b := by
  constructor
  · rintro ⟨r, hr, ⟨f, hf, hbody, hspelled, hx⟩ | ⟨f, hf, hbody, hspelled, hx⟩⟩
    · obtain ⟨rfl, hb, rfl, rfl⟩ := call_mem_ofCalls.mp hx
      obtain ⟨d, hd, rfl⟩ := Option.map_eq_some_iff.mp (Option.mem_toList.mp hf)
      exact ⟨rfl, rfl, hbody, .destroy, hspelled, .destroy hr hd hb⟩
    · obtain ⟨rfl, hb, rfl, rfl⟩ := call_mem_ofCalls.mp hx
      obtain ⟨constructor, hconstructor, rfl⟩ := List.mem_map.mp hf
      exact ⟨rfl, rfl, hbody, .construct, hspelled, .construct hr hconstructor hb⟩
  · rintro ⟨rfl, rfl, hbody, phase, hspelled, hpart⟩
    cases hpart with
    | @destroy r d _ hr hd hb =>
        refine ⟨r, hr, Or.inl ⟨d.function, ?_, hbody, hspelled, ?_⟩⟩
        · simp [hd]
        · exact call_mem_ofCalls.mpr ⟨rfl, hb, rfl, rfl⟩
    | @construct r constructor _ hr hconstructor hb =>
        exact ⟨r, hr, Or.inr ⟨constructor.function, List.mem_map_of_mem hconstructor, hbody,
          hspelled, call_mem_ofCalls.mpr ⟨rfl, hb, rfl, rfl⟩⟩⟩

end Features

/-! ## Features that are nodes -/

theorem exists_node_of_mem_sourceNodes {x : Feature} {source : PointerSource}
    (hx : x ∈ PointerCalls.sourceNodes source) : ∃ key, x = .node key := by
  cases source with
  | function key => exact ⟨key, hx⟩
  | lambda key => exact ⟨key, hx⟩
  | _ => exact absurd hx (Set.notMem_empty x)

theorem exists_node_of_mem_argNodes {x : Feature} {args : List (Option PointerSource)}
    (hx : x ∈ PointerCalls.argNodes args) : ∃ key, x = .node key := by
  obtain ⟨arg, -, source, -, hx⟩ := hx
  exact exists_node_of_mem_sourceNodes hx

theorem exists_node_of_mem_siteNodes {h : Hierarchy} {x : Feature} {site : CallSite}
    (hx : x ∈ PointerCalls.siteNodes h site) : ∃ key, x = .node key := by
  rw [PointerCalls.siteNodes] at hx
  split at hx
  · exact hx.elim (fun hx => ⟨_, hx⟩) exists_node_of_mem_argNodes
  · split at hx
    · rcases hx with hx | ⟨f, -, hx⟩
      · exact exists_node_of_mem_argNodes hx
      · exact ⟨f, hx⟩
    · exact absurd hx (Set.notMem_empty x)
  · exact exists_node_of_mem_argNodes hx
  · exact exists_node_of_mem_argNodes hx
  · exact absurd hx (Set.notMem_empty x)

/-- The pass for pointers refers to functions, before it adds calls. -/
theorem exists_node_of_mem_referred {h : Hierarchy} {u : TranslationUnit} {x : Feature}
    (hx : x ∈ PointerCalls.referred h u) : ∃ key, x = .node key := by
  rcases hx with (⟨r, -, ⟨-, rfl⟩ | ⟨d, -, hx⟩⟩ | ⟨a, -, hx⟩) | ⟨site, -, hx⟩
  · exact ⟨r.key, rfl⟩
  · exact exists_node_of_mem_sourceNodes hx
  · exact exists_node_of_mem_sourceNodes hx
  · exact exists_node_of_mem_siteNodes hx

theorem exists_node_of_mem_ofLinks {h : Hierarchy} {x : Feature}
    (hx : x ∈ VirtualCalls.ofLinks h) : ∃ key, x = .node key := by
  obtain ⟨o, -, hx | hx⟩ := hx
  · exact ⟨_, hx⟩
  · exact ⟨_, hx⟩

/-! ## Where a resolution starts -/

/-- A graph shows the direct calls of a unit, and the bodies that the unit has. -/
structure StartsFrom (u : TranslationUnit) (shown : Set Feature) : Prop where
  direct : ∀ site ∈ u.callSites, DirectCalls.ofSite site ⊆ shown
  body_iff : ∀ f, .body f ∈ shown ↔ u.Defines f

theorem call_mem_added_iff {u : TranslationUnit} {a b : FunctionKey} {k : EdgeKind}
    {c : Confidence} : .call a b k c ∈ DirectCalls.added u ↔
      ∃ site ∈ u.callSites, .call a b k c ∈ DirectCalls.ofSite site := by
  constructor
  · rintro ((⟨r, -, hx⟩ | ⟨r, -, base, -, hx⟩) | hx)
    · exact absurd hx (by simp [DirectCalls.ofRecord])
    · exact absurd hx (by simp)
    · exact hx
  · exact Or.inr

theorem startsFrom_added (u : TranslationUnit) : StartsFrom u (DirectCalls.added u) where
  direct := fun site hsite x hx => Or.inr ⟨site, hsite, hx⟩
  body_iff f := by
    constructor
    · rintro ((⟨r, hr, hx⟩ | ⟨r, -, base, -, hx⟩) | ⟨site, -, hx⟩)
      · rcases hx with hx | ⟨hdefined, hx⟩
        · exact absurd hx (by simp)
        · exact ⟨r, hr, hdefined, (Feature.body.inj hx).symm⟩
      · exact absurd hx (by simp)
      · rw [DirectCalls.ofSite] at hx
        split at hx
        · exact absurd hx LifetimeCalls.body_notMem_ofCalls
        · exact absurd hx (Set.notMem_empty _)
    · rintro ⟨r, hr, hdefined, rfl⟩
      exact Or.inl (Or.inl ⟨r, hr, Or.inr ⟨hdefined, rfl⟩⟩)

theorem body_notMem_ofCall {caller callee key : FunctionKey} {kind : EdgeKind}
    {confidence : Confidence} : .body key ∉ Scope.ofCall caller callee kind confidence := by
  simp [Scope.ofCall]

/-- No body comes from the pass for virtual calls. -/
theorem body_notMem_added {h : Hierarchy} {u : TranslationUnit} {key : FunctionKey} :
    .body key ∉ VirtualCalls.added h u := by
  rintro (hx | ⟨site, -, hx⟩)
  · obtain ⟨f, hf⟩ := exists_node_of_mem_ofLinks hx
    exact absurd hf (by simp)
  · rw [VirtualCalls.ofSite] at hx
    split at hx
    · split at hx
      · exact LifetimeCalls.body_notMem_ofCalls hx
      · exact body_notMem_ofCall hx
    · exact hx

theorem body_notMem_ofIndirect {h : Hierarchy} {held : Family FunctionKey} {site : CallSite}
    {key : FunctionKey} : .body key ∉ PointerCalls.ofIndirect h held site := by
  intro hx
  rw [PointerCalls.ofIndirect] at hx
  split at hx
  · obtain ⟨f, target, -, -, hx⟩ := hx
    exact body_notMem_ofCall hx
  · exact hx

/-! ## What the slots hold -/

namespace PointerCalls

variable {h : Hierarchy} {returnFlow : ReturnFlow} {u : TranslationUnit} {shown : Set Feature}
  {site : CallSite}

/-- A call site asks for its constraints. -/
theorem mem_asked_of_site (hsite : site ∈ u.callSites) {c : Constraint FunctionKey}
    (hc : c ∈ ofSite h returnFlow site) : c ∈ asked h returnFlow u shown :=
  Or.inr (Or.inr (Or.inl (List.mem_flatMap.mpr ⟨site, hsite, hc⟩)))

theorem overrider_mem_asked {f other : FunctionKey} (hv : f ∈ h.virtuals)
    (hother : other ∈ h.overriders f) : .overrider f other ∈ asked h returnFlow u Set.univ :=
  Or.inr (Or.inr (Or.inr ⟨f, hv, other, hother, Set.mem_univ _, Set.mem_univ _, rfl⟩))

variable (h returnFlow shown) in
/-- A call through a slot passes its arguments to whatever the slot holds, and to the overriders
if it is made on an object. -/
theorem callThrough_mem_asked (hsite : site ∈ u.callSites) {slot : Slot} {kind : EdgeKind}
    {receiver : Option String} (hindirect : indirect? site = some (slot, kind, receiver)) :
    .callThrough (h.canonical slot) (originsOf h returnFlow site.args) site.explicitArgs
      (kind = .memberPointer) ∈ asked h returnFlow u shown := by
  refine mem_asked_of_site hsite ?_
  rw [indirect?] at hindirect
  rw [ofSite]
  cases htarget : site.target with
  | pointer slot' =>
      rw [htarget] at hindirect
      obtain ⟨rfl, rfl, rfl⟩ := by simpa using hindirect
      exact List.mem_singleton.mpr rfl
  | memberPointer slot' receiver' =>
      rw [htarget] at hindirect
      obtain ⟨rfl, rfl, rfl⟩ := by simpa using hindirect
      exact List.mem_singleton.mpr rfl
  | _ => exact absurd hindirect (by simp [htarget])

end PointerCalls

/-- An overrider and what it overrides are both in the graph once the links are. -/
theorem node_mem_of_overrides {h : Hierarchy} {shown : Set Feature}
    (hlinks : VirtualCalls.ofLinks h ⊆ shown) {f g : FunctionKey} (hover : h.Overrides f g) :
    .node f ∈ shown ∧ .node g ∈ shown :=
  ⟨hlinks ⟨⟨f, g⟩, hover, Or.inl rfl⟩, hlinks ⟨⟨f, g⟩, hover, Or.inr rfl⟩⟩

/-- Once the links are in the graph, the facts ask for the same whatever else is in it. -/
theorem asked_eq_univ {h : Hierarchy} {shown : Set Feature}
    (hlinks : VirtualCalls.ofLinks h ⊆ shown) (returnFlow : ReturnFlow) (u : TranslationUnit) :
    PointerCalls.asked h returnFlow u shown = PointerCalls.asked h returnFlow u Set.univ := by
  refine Set.Subset.antisymm (PointerCalls.asked_mono (Set.subset_univ _)) fun c hc => ?_
  refine hc.imp_right (Or.imp_right (Or.imp_right ?_))
  rintro ⟨f, hf, other, hother, -, -, rfl⟩
  have hpath := Hierarchy.mem_overriders_iff.mp hother
  obtain ⟨_, hfirst, -⟩ := Relation.TransGen.head'_iff.mp hpath
  obtain ⟨_, -, hlast⟩ := Relation.TransGen.tail'_iff.mp hpath
  exact ⟨f, hf, other, hother, (node_mem_of_overrides hlinks hlast).2,
    (node_mem_of_overrides hlinks hfirst).1, rfl⟩

namespace Resolution

variable {options : Options} {u : TranslationUnit} {shown more : Set Feature}

/-- What the slots hold is the least solution of the constraints of the facts, all overriders being
in the graph. -/
theorem isLeast_univ (r : Resolution options u shown) :
    IsLeast {F | Solves (PointerCalls.asked r.hierarchy options.returnFlow u Set.univ) id F}
      r.held := by
  have hlinks : VirtualCalls.ofLinks r.hierarchy ⊆ shown ∪ VirtualCalls.added r.hierarchy u ∪
      PointerCalls.referred r.hierarchy u := fun _ hx => Or.inl (Or.inr (Or.inl hx))
  rw [← asked_eq_univ hlinks]
  exact r.isLeast

/-- What the slots hold does not depend on where a resolution starts. -/
theorem held_eq (r : Resolution options u shown) (r' : Resolution options u more) :
    r.held = r'.held := by
  have hleast := r'.isLeast_univ
  rw [← hierarchy_eq r r'] at hleast
  exact r.isLeast_univ.unique hleast

/-! ## Main statement -/

theorem body_mem_called_iff (r : Resolution options u shown) {key : FunctionKey} :
    .body key ∈ r.called ↔ .body key ∈ shown := by
  constructor
  · rintro ((hx | hx) | hx | ⟨site, -, hx⟩)
    · exact hx
    · exact absurd hx body_notMem_added
    · obtain ⟨f, hf⟩ := exists_node_of_mem_referred hx
      exact absurd hf (by simp)
    · exact absurd hx body_notMem_ofIndirect
  · exact fun hx => Or.inl (Or.inl hx)

/-- The calls that a resolution shows are those that it starts from and those that are derived. -/
theorem call_mem_features_iff (r : Resolution options u shown) (hstart : StartsFrom u shown)
    {a b : FunctionKey} {k : EdgeKind} {c : Confidence} : .call a b k c ∈ r.features ↔
      .call a b k c ∈ shown ∨ Derived options u r.hierarchy r.held a b k c := by
  have part_iff : ∀ explicit, (.call a b k c ∈ gather r.hierarchy.records
      (LifetimeCalls.ofBodies r.hierarchy r.called explicit) ↔ k = .implicit ∧ c = .definite ∧
        u.Defines a ∧ ∃ phase, (a, phase) ∉ explicit ∧ PartCalls r.hierarchy phase a b) := by
    intro explicit
    rw [partCalls_iff, r.body_mem_called_iff, hstart.body_iff]
  constructor
  · rintro (((hx | hx | ⟨site, hsite, hx⟩) | hx | ⟨site, hsite, hx⟩) | ⟨hcapture, hx⟩)
    · exact Or.inl hx
    · obtain ⟨f, hf⟩ := exists_node_of_mem_ofLinks hx
      exact absurd hf (by simp)
    · obtain ⟨rfl, hcalls⟩ := siteCalls_of_virtual r.held hx
      exact Or.inr (.site hsite hcalls)
    · obtain ⟨f, hf⟩ := exists_node_of_mem_referred hx
      exact absurd hf (by simp)
    · obtain ⟨rfl, hcalls⟩ := siteCalls_of_indirect hx
      exact Or.inr (.site hsite hcalls)
    · rcases hx with ⟨e, he, hknown, hx⟩ | hx
      · obtain ⟨rfl, hb, rfl, rfl⟩ := call_mem_ofCalls.mp hx
        exact Or.inr (.event hcapture he hknown hb)
      · obtain ⟨rfl, rfl, hdefined, phase, hspelled, hpart⟩ := (part_iff _).mp hx
        exact Or.inr (.part hcapture hdefined hspelled hpart)
  · rintro (hx | hderived)
    · exact r.subset_features hx
    · cases hderived with
      | site hsite hcalls =>
          rcases hcalls.mem with hx | hx | hx
          · exact r.subset_features (hstart.direct _ hsite hx)
          · exact Or.inl (Or.inl (Or.inr (Or.inr ⟨_, hsite, hx⟩)))
          · exact Or.inl (Or.inr (Or.inr ⟨_, hsite, hx⟩))
      | event hcapture he hknown hb =>
          exact Or.inr ⟨hcapture, Or.inl ⟨_, he, hknown, call_mem_ofCalls.mpr ⟨rfl, hb, rfl, rfl⟩⟩⟩
      | part hcapture hdefined hspelled hpart =>
          exact Or.inr ⟨hcapture, Or.inr ((part_iff _).mpr
            ⟨rfl, rfl, hdefined, _, hspelled, hpart⟩)⟩

/-- The calls in the graph of a unit are those that are derived. -/
theorem call_mem_features_of_added (r : Resolution options u (DirectCalls.added u))
    {a b : FunctionKey} {k : EdgeKind} {c : Confidence} :
    .call a b k c ∈ r.features ↔ Derived options u r.hierarchy r.held a b k c := by
  rw [r.call_mem_features_iff (startsFrom_added u)]
  refine or_iff_right_of_imp fun hx => ?_
  obtain ⟨site, hsite, hx⟩ := call_mem_added_iff.mp hx
  obtain ⟨rfl, hcalls⟩ := siteCalls_of_direct r.hierarchy r.held hx
  exact .site hsite hcalls

end Resolution

/-- The bodies in the graph of a unit are those that the unit has. -/
theorem UnitGraph.Analysed.body_mem_features_iff {options : Options} {index : Nat}
    {u : TranslationUnit} {p : UnitGraph} (hp : Analysed options index u p) {f : FunctionKey} :
    .body f ∈ p.graph.features ↔ u.Defines f := by
  obtain ⟨r, hr⟩ := hp.features
  rw [hr, ← (startsFrom_added u).body_iff, ← r.body_mem_called_iff]
  refine or_iff_left ?_
  rintro ⟨-, ⟨e, -, -, hx⟩ | ⟨c, -, hx⟩⟩
  · exact LifetimeCalls.body_notMem_ofCalls hx
  · exact LifetimeCalls.body_notMem_ofBodies r.hierarchy hx

end CallGraphs
