import CallGraphs.Proofs.Analysis.Derivation
import CallGraphs.Proofs.Classes.Growth

/-!
# More facts

What becomes of the calls of a unit when its facts are part of more facts
(`TranslationUnit.Within`), as those of a unit are part of the facts of a whole
program.  Records of one class have to agree and every member function has to
belong to one class; then the hierarchy of the unit is a part of the larger one.

* Slots hold no less (`Resolution.held_within`).  A slot may stand for others
  only when more classes are known, so what a slot holds is found, among more
  facts, in the slot that it then stands for.
* Sites, events and bodies call no less, with two exceptions.  A virtual call
  that was certain may have several targets, and so may a deletion that was
  certain.  And a body may turn out to spell out what it does to the parts of
  its object, which it then no longer does on its own account.
-/

namespace CallGraphs

open CallGraphs.Flow

/-! ## Facts -/

namespace TranslationUnit

/-- Whatever one unit says, another one says too. -/
structure Within (u u' : TranslationUnit) : Prop where
  functions : u.functions ⊆ u'.functions
  classes : u.classes ⊆ u'.classes
  callSites : u.callSites ⊆ u'.callSites
  assignments : u.assignments ⊆ u'.assignments
  lifetimeEvents : u.lifetimeEvents ⊆ u'.lifetimeEvents

namespace Within

variable {u u' : TranslationUnit} (hu : u.Within u')
include hu

theorem allLifetimeEvents : u.allLifetimeEvents ⊆ u'.allLifetimeEvents := by
  intro e he
  rcases List.mem_append.mp he with he | he
  · exact List.mem_append_left _ (hu.lifetimeEvents he)
  · exact List.mem_append_right _ (List.filterMap_subset _ hu.callSites he)

theorem defines {f : FunctionKey} (h : u.Defines f) : u'.Defines f := by
  obtain ⟨r, hr, hf⟩ := h
  exact ⟨r, hu.functions hr, hf⟩

end Within

end TranslationUnit

/-! ## Slots -/

namespace PointerCalls

variable {h h' : Hierarchy} {returnFlow : ReturnFlow}

theorem originOf_within (hw : h.toClassTable.Within h'.toClassTable) (source : PointerSource) :
    (originOf h returnFlow source).map (·.mapSlot h'.canonical) =
      originOf h' returnFlow source := by
  cases source with
  | slot slot => exact congrArg (fun key => some (Origin.slot key)) (hw.canonical_canonical slot)
  | callResult callee => cases returnFlow <;> rfl
  | _ => rfl

theorem originsOf_within (hw : h.toClassTable.Within h'.toClassTable)
    (args : List (Option PointerSource)) :
    mapSlots h'.canonical (originsOf h returnFlow args) = originsOf h' returnFlow args := by
  rw [mapSlots, originsOf, originsOf, List.map_map]
  refine List.map_congr_left fun arg _ => ?_
  cases arg with
  | none => rfl
  | some source => exact originOf_within hw source

theorem mapSlot_mem_originOf (hw : h.toClassTable.Within h'.toClassTable) {source : PointerSource}
    {o : Origin FunctionKey} (ho : o ∈ (originOf h returnFlow source).toList) :
    o.mapSlot h'.canonical ∈ (originOf h' returnFlow source).toList := by
  rw [Option.mem_toList, ← originOf_within hw, Option.mem_toList.mp ho]
  rfl

/-- The constraints of a call site are among those of the same site when more is known. -/
theorem ofSite_within (hw : h.Within h') {site : CallSite} {c : Constraint FunctionKey}
    (hc : c ∈ ofSite h returnFlow site) : c.mapSlots h'.canonical ∈ ofSite h' returnFlow site := by
  rw [ofSite] at hc ⊢
  cases htarget : site.target with
  | direct callee =>
      rw [htarget] at hc
      obtain rfl := List.mem_singleton.mp hc
      rw [Constraint.mapSlots, originsOf_within hw.table]
      exact List.mem_singleton_self _
  | virtual receiver method =>
      rw [htarget] at hc
      dsimp only at hc ⊢
      cases hd : h.dispatch receiver method with
      | error _ =>
          rw [hd] at hc
          exact absurd hc List.not_mem_nil
      | ok d =>
          rw [hd] at hc
          obtain ⟨d', hd', hsub, -⟩ := hw.dispatch hd
          obtain ⟨f, hf, rfl⟩ := List.mem_map.mp hc
          rw [hd', Constraint.mapSlots, originsOf_within hw.table]
          exact List.mem_map_of_mem (hsub f hf)
  | pointer slot =>
      rw [htarget] at hc
      obtain rfl := List.mem_singleton.mp hc
      rw [Constraint.mapSlots, hw.table.canonical_canonical, originsOf_within hw.table]
      exact List.mem_singleton_self _
  | memberPointer slot receiver =>
      rw [htarget] at hc
      obtain rfl := List.mem_singleton.mp hc
      rw [Constraint.mapSlots, hw.table.canonical_canonical, originsOf_within hw.table]
      exact List.mem_singleton_self _
  | implicit =>
      rw [htarget] at hc
      exact absurd hc List.not_mem_nil

theorem ofAssignment_within (hw : h.toClassTable.Within h'.toClassTable) {a : Assignment}
    {c : Constraint FunctionKey} (hc : c ∈ ofAssignment h returnFlow a) :
    c.mapSlots h'.canonical ∈ ofAssignment h' returnFlow a := by
  obtain ⟨o, ho, rfl⟩ := List.mem_map.mp hc
  rw [Constraint.mapSlots, hw.canonical_canonical]
  exact List.mem_map.mpr ⟨o.mapSlot h'.canonical, mapSlot_mem_originOf hw ho, rfl⟩

theorem ofRecord_within (hw : h.toClassTable.Within h'.toClassTable) {r : FunctionRecord}
    {c : Constraint FunctionKey} (hc : c ∈ ofRecord h returnFlow r) :
    c.mapSlots h'.canonical ∈ ofRecord h' returnFlow r := by
  obtain ⟨d, hd, hc⟩ := List.mem_flatMap.mp hc
  obtain ⟨o, ho, rfl⟩ := List.mem_map.mp hc
  exact List.mem_flatMap.mpr ⟨d, hd,
    List.mem_map.mpr ⟨o.mapSlot h'.canonical, mapSlot_mem_originOf hw ho, rfl⟩⟩

/-- What the facts ask for is asked for by more facts too, up to what slots stand for. -/
theorem asked_within (hw : h.Within h') {u u' : TranslationUnit} (hu : u.Within u')
    {c : Constraint FunctionKey} (hc : c ∈ asked h returnFlow u Set.univ) :
    c.mapSlots h'.canonical ∈ asked h' returnFlow u' Set.univ := by
  rcases hc with hc | hc | hc | ⟨f, hf, other, hother, -, -, rfl⟩
  · obtain ⟨r, hr, hc⟩ := List.mem_flatMap.mp hc
    exact Or.inl (List.mem_flatMap.mpr ⟨r, hu.functions hr, ofRecord_within hw.table hc⟩)
  · obtain ⟨a, ha, hc⟩ := List.mem_flatMap.mp hc
    exact Or.inr (Or.inl (List.mem_flatMap.mpr
      ⟨a, hu.assignments ha, ofAssignment_within hw.table hc⟩))
  · obtain ⟨site, hsite, hc⟩ := List.mem_flatMap.mp hc
    exact mem_asked_of_site (hu.callSites hsite) (ofSite_within hw hc)
  · have hpath := hw.transGen_overrides (Hierarchy.mem_overriders_iff.mp hother)
    exact overrider_mem_asked (hw.virtuals f hf) (Hierarchy.mem_overriders_iff.mpr hpath)

end PointerCalls

/-! ## Sites -/

section Sites

variable {h h' : Hierarchy} {held held' : Family FunctionKey} {site : CallSite}
  {target : FunctionKey} {kind : EdgeKind} {confidence : Confidence}

/-- A site calls what it called before, unless that was a certain virtual call. -/
theorem SiteCalls.within (hw : h.Within h') (hheld : ∀ slot, held slot ⊆ held' (h'.canonical slot))
    (hcalls : SiteCalls h held site target kind confidence)
    (hcertain : ¬ (kind = .virtual ∧ confidence = .definite)) :
    SiteCalls h' held' site target kind confidence := by
  have hslot : ∀ slot, held (h.canonical slot) ⊆ held' (h'.canonical slot) := by
    intro slot
    rw [← hw.table.canonical_canonical slot]
    exact hheld _
  cases hcalls with
  | direct htarget => exact .direct htarget
  | @dispatched receiver method d _ htarget hd hmem =>
      obtain ⟨d', hd', hsub, hmay⟩ := hw.dispatch hd
      have hconfidence : d.confidence = .may := by
        cases hc : d.confidence with
        | may => rfl
        | definite => exact absurd ⟨rfl, hc⟩ hcertain
      rw [hconfidence, ← hmay hconfidence]
      exact .dispatched htarget hd' (hsub _ hmem)
  | madeUp => exact absurd ⟨rfl, rfl⟩ hcertain
  | pointer htarget hf => exact .pointer htarget (hslot _ hf)
  | memberPointer htarget hf hmem =>
      exact .memberPointer htarget (hslot _ hf) (hw.memberPointerTargets hmem)

end Sites

/-! ## Lifetimes -/

namespace ClassTable

variable {t : ClassTable} {key : String}

theorem mem_derivedClosure_self (hknown : t.contains key = true) : key ∈ t.derivedClosure key := by
  rw [derivedClosure, if_pos hknown]
  exact mem_queueSearch_iff.mpr .refl

theorem length_derivedClosure_eq_one_iff (hknown : t.contains key = true) :
    (t.derivedClosure key).length = 1 ↔ ∀ d ∈ t.derivedClosure key, d = key := by
  have hself := mem_derivedClosure_self hknown
  constructor
  · intro hlength d hd
    obtain ⟨only, honly⟩ := List.length_eq_one_iff.mp hlength
    rw [honly, List.mem_singleton] at hself hd
    exact hd.trans hself.symm
  · intro hall
    have hnodup : (t.derivedClosure key).Nodup := by
      rw [derivedClosure, if_pos hknown]
      exact nodup_queueSearch
    have hperm : (t.derivedClosure key).Perm [key] :=
      (List.perm_ext_iff_of_nodup hnodup (List.nodup_singleton key)).mpr fun d =>
        ⟨fun hd => List.mem_singleton.mpr (hall d hd), fun hd => List.mem_singleton.mp hd ▸ hself⟩
    exact hperm.length_eq

end ClassTable

namespace LifetimeCalls

variable {h h' : Hierarchy} {key : String}

/-- Deleting through a pointer to a class with a virtual destructor runs what destroying an object
of the class, or of one derived from it, runs. -/
theorem mem_deleteTargets_iff (hvirtual : h.hasVirtualDestructor key = true) {f : FunctionKey} :
    f ∈ (deleteTargets h key).1 ↔ ∃ below ∈ h.derivedClosure key, f ∈ h.destroyTargets below := by
  rw [deleteTargets, if_pos hvirtual, List.mem_eraseDups, List.mem_flatMap]

theorem deleteTargets_may_iff (hknown : h.contains key = true) : (deleteTargets h key).2 = .may ↔
    h.hasVirtualDestructor key = true ∧ ∃ below ∈ h.derivedClosure key, below ≠ key := by
  have hlength := ClassTable.length_derivedClosure_eq_one_iff hknown
  by_cases hvirtual : h.hasVirtualDestructor key = true
  · simp [hvirtual, deleteTargets, hlength]
  · simp [hvirtual, deleteTargets]

/-- A deletion runs what it ran before, and one that was uncertain stays so. -/
theorem deleteTargets_within (hw : h.Within h') (hknown : h.contains key = true) :
    (deleteTargets h key).1 ⊆ (deleteTargets h' key).1 ∧
      ((deleteTargets h key).2 = .may → (deleteTargets h' key).2 = .may) := by
  have hknown' := hw.classes.contains hknown
  have hgrows : h.hasVirtualDestructor key = true → h'.hasVirtualDestructor key = true := by
    simpa [Hierarchy.hasVirtualDestructor] using hw.virtualDestructors key
  constructor
  · intro f hf
    by_cases hvirtual : h.hasVirtualDestructor key = true
    · obtain ⟨below, hbelow, hf⟩ := (mem_deleteTargets_iff hvirtual).mp hf
      exact (mem_deleteTargets_iff (hgrows hvirtual)).mpr
        ⟨below, hw.derivedClosure hbelow, hw.table.destroyTargets below hf⟩
    · rw [deleteTargets, if_neg hvirtual] at hf
      have hf' := hw.table.destroyTargets key hf
      by_cases hvirtual' : h'.hasVirtualDestructor key = true
      · exact (mem_deleteTargets_iff hvirtual').mpr
          ⟨key, ClassTable.mem_derivedClosure_self hknown', hf'⟩
      · rwa [deleteTargets, if_neg hvirtual']
  · intro hmay
    obtain ⟨hvirtual, below, hbelow, hne⟩ := (deleteTargets_may_iff hknown).mp hmay
    exact (deleteTargets_may_iff hknown').mpr
      ⟨hgrows hvirtual, below, hw.derivedClosure hbelow, hne⟩

theorem eventTargets_of_dispatches {e : LifetimeEvent} (hphase : e.phase = .destroy)
    (hdispatches : e.kind.dispatches = true) : eventTargets h e = deleteTargets h e.className := by
  simp [eventTargets, hphase, hdispatches]

theorem eventTargets_within (hw : h.Within h') {e : LifetimeEvent}
    (hknown : h.contains e.className = true) :
    (eventTargets h e).1 ⊆ (eventTargets h' e).1 ∧
      ((eventTargets h e).2 = .may → (eventTargets h' e).2 = .may) := by
  unfold eventTargets
  split
  · exact ⟨List.Subset.refl _, id⟩
  · exact ⟨hw.table.constructTargets e.className, id⟩
  · split
    · exact deleteTargets_within hw hknown
    · exact ⟨hw.table.destroyTargets e.className, id⟩

/-- An event is uncertain exactly if it is a deletion through a pointer to a class with a virtual
destructor that has a class below it. -/
theorem eventTargets_may_iff {e : LifetimeEvent} (hknown : h.contains e.className = true) :
    (eventTargets h e).2 = .may ↔ e.phase = .destroy ∧ e.kind.dispatches = true ∧
      h.hasVirtualDestructor e.className = true ∧
      ∃ below ∈ h.derivedClosure e.className, below ≠ e.className := by
  unfold eventTargets
  split
  · next hphase _ => simp [hphase]
  · next hphase _ => simp [hphase]
  · next hphase =>
    by_cases hdispatches : e.kind.dispatches = true
    · simp [hphase, hdispatches, deleteTargets_may_iff hknown]
    · simp [hdispatches]

end LifetimeCalls

theorem PartCalls.within {h h' : Hierarchy} (hw : h.Within h') {phase : Phase}
    {f target : FunctionKey} (hpart : PartCalls h phase f target) :
    PartCalls h' phase f target := by
  cases hpart with
  | destroy hc hd hmem =>
      exact .destroy (hw.table.records hw.nodup_keys hc) hd (hw.table.partDestroyTargets _ hmem)
  | construct hc hk hmem =>
      exact .construct (hw.table.records hw.nodup_keys hc) hk (hw.table.partConstructTargets _ hmem)

/-! ## Main statements -/

/-- A certain call of a unit that does not follow from more facts.  Either a deletion has become
uncertain: its class has a virtual destructor and, among more facts, a class below it.  Or a body,
which did not spell out what it does to the parts of its object, is now seen to do so. -/
inductive Outgrown (options : Options) (u u' : TranslationUnit) (h h' : Hierarchy) :
    FunctionKey → FunctionKey → Prop
  | deletion {e : LifetimeEvent} {below : String} {target : FunctionKey} :
      options.captureLifetimes = true → e ∈ u.allLifetimeEvents →
      h.contains e.className = true → e.phase = .destroy → e.kind.dispatches = true →
      (LifetimeCalls.deleteTargets h e.className).2 = .definite →
      target ∈ (LifetimeCalls.deleteTargets h e.className).1 →
      h'.hasVirtualDestructor e.className = true →
      below ∈ h'.derivedClosure e.className → below ≠ e.className →
      Outgrown options u u' h h' e.caller target
  | part {phase : Phase} {f target : FunctionKey} : options.captureLifetimes = true →
      u.Defines f → (f, phase) ∉ LifetimeCalls.spelledOut u.allLifetimeEvents →
      (f, phase) ∈ LifetimeCalls.spelledOut u'.allLifetimeEvents → PartCalls h phase f target →
      Outgrown options u u' h h' f target

/-- What is outgrown did follow from the facts of the unit. -/
theorem Outgrown.derived {options : Options} {u u' : TranslationUnit} {h h' : Hierarchy}
    {held : Family FunctionKey} {caller callee : FunctionKey}
    (houtgrown : Outgrown options u u' h h' caller callee) :
    Derived options u h held caller callee .implicit .definite := by
  cases houtgrown with
  | @deletion e _ _ hcapture he hknown hphase hdispatches hdefinite hmem =>
      rw [← LifetimeCalls.eventTargets_of_dispatches hphase hdispatches] at hdefinite hmem
      rw [← hdefinite]
      exact .event hcapture he hknown hmem
  | part hcapture hdefined hspelled _ hpart => exact .part hcapture hdefined hspelled hpart

namespace Resolution

variable {options : Options} {u u' : TranslationUnit} {shown more : Set Feature}
  (r : Resolution options u shown) (r' : Resolution options u' more) (hu : u.Within u')
  (hagree : RecordsAgree u'.classes) (hlisted : Hierarchy.ListedByOneClass u'.classes)
include hu hagree hlisted

theorem hierarchy_within : r.hierarchy.Within r'.hierarchy :=
  Hierarchy.within_of_build r.build r'.build hu.classes hu.functions hagree hlisted

/-- What a slot holds, the slot that it stands for among more facts holds. -/
theorem held_within (slot : Slot) : r.held slot ⊆ r'.held (r'.hierarchy.canonical slot) := by
  have hw := hierarchy_within r r' hu hagree hlisted
  have hsolves : Solves (PointerCalls.asked r.hierarchy options.returnFlow u Set.univ) id
      (r'.held ∘ r'.hierarchy.canonical) :=
    r'.isLeast_univ.1.comapSlots (fun _ _ => rfl) fun c hc => PointerCalls.asked_within hw hu hc
  exact r.isLeast_univ.2 hsolves slot

/-- A call of a unit follows from more facts too, unless it is a certain virtual call or was
outgrown. -/
theorem derived_within {a b : FunctionKey} {k : EdgeKind} {c : Confidence}
    (hderived : Derived options u r.hierarchy r.held a b k c)
    (hcertain : ¬ (k = .virtual ∧ c = .definite)) :
    Derived options u' r'.hierarchy r'.held a b k c ∨
      (k = .implicit ∧ c = .definite) ∧ Outgrown options u u' r.hierarchy r'.hierarchy a b := by
  have hw := hierarchy_within r r' hu hagree hlisted
  cases hderived with
  | site hsite hcalls =>
      have hheld := held_within r r' hu hagree hlisted
      exact Or.inl (.site (hu.callSites hsite) (hcalls.within hw hheld hcertain))
  | @event e _ hcapture he hknown hmem =>
      obtain ⟨hsub, hmay⟩ := LifetimeCalls.eventTargets_within hw hknown
      have hknown' := hw.classes.contains hknown
      have hevent : Derived options u' r'.hierarchy r'.held e.caller b .implicit
          (LifetimeCalls.eventTargets r'.hierarchy e).2 :=
        .event hcapture (hu.allLifetimeEvents he) hknown' (hsub hmem)
      cases hconfidence : (LifetimeCalls.eventTargets r.hierarchy e).2 with
      | may =>
          rw [hmay hconfidence] at hevent
          exact Or.inl hevent
      | definite =>
          cases hconfidence' : (LifetimeCalls.eventTargets r'.hierarchy e).2 with
          | definite =>
              rw [hconfidence'] at hevent
              exact Or.inl hevent
          | may =>
              obtain ⟨hphase, hdispatches, hvirtual, below, hbelow, hne⟩ :=
                (LifetimeCalls.eventTargets_may_iff hknown').mp hconfidence'
              rw [LifetimeCalls.eventTargets_of_dispatches hphase hdispatches] at hconfidence hmem
              exact Or.inr ⟨⟨rfl, rfl⟩, .deletion hcapture he hknown hphase hdispatches hconfidence
                hmem hvirtual hbelow hne⟩
  | @part phase _ _ hcapture hdefined hspelled hpart =>
      by_cases hspelled' : (a, phase) ∈ LifetimeCalls.spelledOut u'.allLifetimeEvents
      · exact Or.inr ⟨⟨rfl, rfl⟩, .part hcapture hdefined hspelled hspelled' hpart⟩
      · exact Or.inl (.part hcapture (hu.defines hdefined) hspelled' (hpart.within hw))

end Resolution

end CallGraphs
