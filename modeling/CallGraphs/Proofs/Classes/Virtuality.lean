import CallGraphs.Proofs.Classes.Overriding

/-!
# What is virtual

The classes of a hierarchy have their turns one after the other, and each turn
looks at what the turns before it made virtual.  Where no function belongs to
two classes the outcome can be said without turns, as the least relations that
are closed under three rules.

* A destructor is virtual if it is declared so or if that of a base is
  (`ClassTable.DestructorVirtual`).
* A function is virtual if it is declared so, if it is a virtual destructor, or
  if a class declares it under a name for which the lookup from a base of the
  class finds a virtual function (`ClassTable.IsVirtual`).
* A function overrides another if a record says so, or if a class declares it
  under a name for which the lookup from a base finds the other one, and that
  is virtual (`Hierarchy.Built.overrides_iff`).

Nothing here depends on the order of classes, and more classes and more
declarations can only add to these relations.
-/

namespace CallGraphs

open Relation

namespace ClassTable

section Rules

variable (t : ClassTable) (D : FunctionKey → Prop)

/-- The destructor of a class is virtual, if these functions are declared virtual. -/
inductive DestructorVirtual : String → Prop
  | own {key : String} {c : ClassRecord} {d : DestructorDecl} : t.class? key = some c →
      c.destructor = some d → D d.function → DestructorVirtual key
  | inherited {key base : String} : t.HasBase key base → DestructorVirtual base →
      DestructorVirtual key

/-- A function is virtual, if these functions are declared virtual. -/
inductive IsVirtual : FunctionKey → Prop
  | declared {f : FunctionKey} : D f → IsVirtual f
  | destructor {key : String} {c : ClassRecord} {d : DestructorDecl} :
      DestructorVirtual t D key → t.class? key = some c → c.destructor = some d →
      IsVirtual d.function
  | overrider {key name base : String} {c : ClassRecord} {f g : FunctionKey} :
      t.class? key = some c → (name, f) ∈ c.declarations → base ∈ c.baseNames →
      t.Finds name base g → IsVirtual g → IsVirtual f

end Rules

theorem DestructorVirtual.known {t : ClassTable} {D : FunctionKey → Prop} {key : String}
    (h : t.DestructorVirtual D key) : key ∈ t.keys := by
  cases h with
  | own hc => exact mem_keys_of_class? hc
  | inherited hbase => exact mem_keys_of_mem_basesOf hbase.1

end ClassTable

namespace Hierarchy

/-! ## What records declare -/

/-- A function record or a class record calls the function virtual, or a declared override names
it. -/
def DeclaredVirtual (t : ClassTable) (functions : List FunctionRecord) (f : FunctionKey) : Prop :=
  f ∈ declaredVirtuals t functions ∨
    ∃ o ∈ declaredOverrides functions, f = o.overrider ∨ f = o.base

theorem mem_virtuals_noteDeclared {f : FunctionKey} :
    ∀ {l : List Override} {h : Hierarchy}, f ∈ (h.noteDeclared l).virtuals ↔
      f ∈ h.virtuals ∨ ∃ o ∈ l, f = o.overrider ∨ f = o.base
  | [], h => by simp [noteDeclared]
  | o :: l, h => by
      show f ∈ ((((h.markVirtual o.overrider).markVirtual o.base).addOverride o).noteDeclared
        l).virtuals ↔ _
      rw [mem_virtuals_noteDeclared, virtuals_addOverride, mem_virtuals_markVirtual,
        mem_virtuals_markVirtual]
      simp only [List.mem_cons, exists_eq_or_imp]
      constructor
      · rintro ((h | h | h) | h)
        · exact Or.inr (Or.inl (Or.inr h))
        · exact Or.inr (Or.inl (Or.inl h))
        · exact Or.inl h
        · exact Or.inr (Or.inr h)
      · rintro (h | (h | h) | h)
        · exact Or.inl (Or.inr (Or.inr h))
        · exact Or.inl (Or.inr (Or.inl h))
        · exact Or.inl (Or.inl h)
        · exact Or.inr h

theorem mem_virtuals_declared {t : ClassTable} {functions : List FunctionRecord}
    {f : FunctionKey} : f ∈ (declared t functions).virtuals ↔ DeclaredVirtual t functions f := by
  rw [declared_eq, mem_virtuals_noteDeclared, SortedSet.mem_ofList]
  rfl

theorem mem_declaredVirtuals {t : ClassTable} {functions : List FunctionRecord} {f : FunctionKey} :
    f ∈ declaredVirtuals t functions ↔ (∃ r ∈ functions, r.isVirtual = true ∧ r.key = f) ∨
      ∃ c ∈ t.records, ∃ d, c.destructor = some d ∧ d.isVirtual = true ∧ d.function = f := by
  simp only [declaredVirtuals, List.mem_append, List.mem_map, List.mem_filter, List.mem_filterMap]
  constructor
  · rintro (⟨r, ⟨hr, hv⟩, rfl⟩ | ⟨d, ⟨⟨c, hc, hd⟩, hv⟩, rfl⟩)
    · exact Or.inl ⟨r, hr, hv, rfl⟩
    · exact Or.inr ⟨c, hc, d, hd, hv, rfl⟩
  · rintro (⟨r, hr, hv, rfl⟩ | ⟨c, hc, d, hd, hv, rfl⟩)
    · exact Or.inl ⟨r, ⟨hr, hv⟩, rfl⟩
    · exact Or.inr ⟨d, ⟨⟨c, hc, hd⟩, hv⟩, rfl⟩

theorem virtualDestructors_noteDeclared : ∀ (l : List Override) (h : Hierarchy),
    (h.noteDeclared l).virtualDestructors = h.virtualDestructors
  | [], _ => rfl
  | o :: l, h => by
      show ((((h.markVirtual o.overrider).markVirtual o.base).addOverride o).noteDeclared
        l).virtualDestructors = _
      rw [virtualDestructors_noteDeclared l, addOverride]
      split
      · rfl
      · rfl

theorem virtualDestructors_declared (t : ClassTable) (functions : List FunctionRecord) :
    (declared t functions).virtualDestructors = ∅ := by
  rw [declared_eq, virtualDestructors_noteDeclared]

/-! ## Virtual destructors, turn by turn -/

theorem virtualDestructors_noteOverrides : ∀ (found : List Override) (h : Hierarchy),
    (h.noteOverrides found).virtualDestructors = h.virtualDestructors
  | [], _ => rfl
  | o :: found, h => by
      show (((h.markVirtual o.overrider).addOverride o).noteOverrides found).virtualDestructors = _
      rw [virtualDestructors_noteOverrides found, addOverride]
      split
      · rfl
      · rfl

theorem virtualDestructors_markDestructor (h : Hierarchy) (c : ClassRecord) :
    (h.markDestructor c).virtualDestructors = h.virtualDestructors.insert c.key := by
  rw [markDestructor]
  split
  · rfl
  · rfl

/-- The turn of a class gives none but this class a virtual destructor. -/
theorem mem_virtualDestructors_inferClass {h : Hierarchy} {c : ClassRecord} {key : String} :
    key ∈ (h.inferClass c).virtualDestructors ↔
      key ∈ h.virtualDestructors ∨ key = c.key ∧ h.makesVirtualDestructor c = true := by
  rw [inferClass_eq, virtualDestructors_noteOverrides]
  split
  · next hmakes =>
    rw [virtualDestructors_markDestructor, SortedSet.mem_insert]
    simp [hmakes, or_comm]
  · next hmakes => simp [hmakes]

theorem makesVirtualDestructor_iff {h : Hierarchy} {c : ClassRecord} :
    h.makesVirtualDestructor c = true ↔
      (∃ d, c.destructor = some d ∧ (d.isVirtual = true ∨ d.function ∈ h.virtuals)) ∨
        ∃ base ∈ c.baseNames, base ∈ h.virtualDestructors := by
  simp [makesVirtualDestructor, Option.any_eq_true]

/-! ## Nothing is virtual without a reason -/

/-- What the turns so far made virtual follows by the rules.  A function that is not declared
virtual belongs to a class that had its turn. -/
structure Justified (D : FunctionKey → Prop) (done : List String) (h : Hierarchy) : Prop where
  virtuals : ∀ f ∈ h.virtuals, h.IsVirtual D f
  destructors : ∀ key ∈ h.virtualDestructors, h.DestructorVirtual D key
  early : ∀ f ∈ h.virtuals, D f ∨ ∃ c ∈ h.records, c.key ∈ done ∧ f ∈ c.members

section Turns

variable {D : FunctionKey → Prop} {done : List String} {h : Hierarchy}

theorem Justified.destructorVirtual (hj : Justified D done h) (hown : h.OwnedOnce)
    (hD : ∀ c ∈ h.records, ∀ d, c.destructor = some d → d.isVirtual = true → D d.function)
    {key : String} (hnew : key ∉ done) {c : ClassRecord} (hc : h.class? key = some c)
    (hmakes : h.makesVirtualDestructor c = true) : h.DestructorVirtual D key := by
  obtain ⟨hmem, rfl⟩ := ClassTable.class?_eq_some hc
  rcases makesVirtualDestructor_iff.mp hmakes with ⟨d, hd, hvirtual⟩ | ⟨base, hbase, hvirtual⟩
  · refine .own hc hd ?_
    rcases hvirtual with hsaid | hmade
    · exact hD c hmem d hd hsaid
    · -- no other class has this destructor, and the turn of this one is only now
      rcases hj.early _ hmade with hsaid | ⟨e, he, hdone, hfe⟩
      · exact hsaid
      · have hfc : d.function ∈ c.members :=
          ClassRecord.mem_members.mpr (Or.inr (Or.inr ⟨d, hd, rfl⟩))
        exact absurd (hown e he c hmem _ hfe hfc ▸ hdone) hnew
  · have hup := hj.destructors base hvirtual
    exact .inherited ⟨ClassTable.mem_basesOf.mpr ⟨c, hc, hbase⟩, hup.known⟩ hup

theorem Justified.inferKey (hj : Justified D done h) (hown : h.OwnedOnce)
    (hD : ∀ c ∈ h.records, ∀ d, c.destructor = some d → d.isVirtual = true → D d.function)
    {key : String} (hnew : key ∉ done) : Justified D (done ++ [key]) (h.inferKey key) := by
  rw [Hierarchy.inferKey]
  split
  · next c hc =>
    obtain ⟨hmem, hkey⟩ := ClassTable.class?_eq_some hc
    refine ⟨fun f hf => ?_, fun k hk => ?_, fun f hf => ?_⟩
    · rw [toClassTable_inferClass]
      rw [inferClass_eq, mem_virtuals_noteOverrides] at hf
      rcases hf with hf | ⟨o, ho, rfl⟩
      · split at hf
        · next hmakes =>
          rcases mem_virtuals_markDestructor.mp hf with hf | ⟨d, hd, rfl⟩
          · exact hj.virtuals f hf
          · exact .destructor (hj.destructorVirtual hown hD hnew hc hmakes) hc hd
        · exact hj.virtuals f hf
      · obtain ⟨name, hdecl, base, hbase, hfinds, hv⟩ := mem_overridesBy.mp ho
        exact .overrider hc hdecl hbase hfinds (hj.virtuals _ hv)
    · rw [toClassTable_inferClass]
      rcases mem_virtualDestructors_inferClass.mp hk with hk | ⟨rfl, hmakes⟩
      · exact hj.destructors k hk
      · exact hkey ▸ hj.destructorVirtual hown hD hnew hc hmakes
    · rw [toClassTable_inferClass]
      rcases mem_virtuals_inferClass hf with hf | hf
      · refine (hj.early f hf).imp_right ?_
        rintro ⟨e, he, hdone, hfe⟩
        exact ⟨e, he, List.mem_append_left _ hdone, hfe⟩
      · exact Or.inr ⟨c, hmem, List.mem_append_right _ (List.mem_singleton.mpr hkey), hf⟩
  · refine ⟨hj.virtuals, hj.destructors, fun f hf => (hj.early f hf).imp_right ?_⟩
    rintro ⟨e, he, hdone, hfe⟩
    exact ⟨e, he, List.mem_append_left _ hdone, hfe⟩

theorem justified_foldl (hown : h.OwnedOnce)
    (hD : ∀ c ∈ h.records, ∀ d, c.destructor = some d → d.isVirtual = true → D d.function)
    (hstart : Justified D [] h) (hdone : h.Ordered done) :
    Justified D done (done.foldl Hierarchy.inferKey h) := by
  induction hdone with
  | nil => exact hstart
  | snoc _ hnew _ ih =>
      rw [List.foldl_append]
      refine ih.inferKey ?_ ?_ hnew
      · rw [toClassTable_foldl_inferKey]
        exact hown
      · rw [toClassTable_foldl_inferKey]
        exact hD

/-! ## Whatever has a reason is virtual -/

/-- The turns so far found every virtual destructor of the classes that had their turn, and no
virtual destructor is forgotten among the virtual functions. -/
structure Settled (D : FunctionKey → Prop) (done : List String) (h : Hierarchy) : Prop where
  declared : ∀ f, D f → f ∈ h.virtuals
  had : ∀ key ∈ h.virtualDestructors, key ∈ done
  own : ∀ c ∈ h.records, c.key ∈ done → ∀ d, c.destructor = some d → D d.function →
    c.key ∈ h.virtualDestructors
  inherited : ∀ key base, key ∈ done → h.HasBase key base → base ∈ h.virtualDestructors →
    key ∈ h.virtualDestructors
  marked : ∀ c ∈ h.records, c.key ∈ h.virtualDestructors → ∀ d, c.destructor = some d →
    d.function ∈ h.virtuals

theorem Settled.inferClass (hs : Settled D done h) (hk : h.keys.Nodup) (hdone : h.Ordered done)
    {key : String} (hnew : key ∉ done) (hbases : ∀ base, h.HasBase key base → base ∈ done)
    {c : ClassRecord} (hc : h.class? key = some c) :
    Settled D (done ++ [key]) (h.inferClass c) := by
  obtain ⟨hmem, hkey⟩ := ClassTable.class?_eq_some hc
  have hsame : ∀ e ∈ h.records, e.key = key → e = c := fun e he hek =>
    List.inj_on_of_nodup_map hk he hmem (hek.trans hkey.symm)
  have hgrow : ∀ k ∈ h.virtualDestructors, k ∈ (h.inferClass c).virtualDestructors :=
    fun k hk => mem_virtualDestructors_inferClass.mpr (Or.inl hk)
  have hmade : h.makesVirtualDestructor c = true → key ∈ (h.inferClass c).virtualDestructors :=
    fun hmakes => mem_virtualDestructors_inferClass.mpr (Or.inr ⟨hkey.symm, hmakes⟩)
  refine ⟨fun f hf => virtuals_subset_inferClass (hs.declared f hf), fun k hk => ?_, ?_, ?_, ?_⟩
  · rcases mem_virtualDestructors_inferClass.mp hk with hk | ⟨rfl, -⟩
    · exact List.mem_append_left _ (hs.had k hk)
    · exact List.mem_append_right _ (List.mem_singleton.mpr hkey)
  · intro e he hedone d hd hDd
    rw [toClassTable_inferClass] at he
    rcases List.mem_append.mp hedone with hedone | hlast
    · exact hgrow _ (hs.own e he hedone d hd hDd)
    · obtain rfl := hsame e he (List.mem_singleton.mp hlast)
      rw [hkey]
      exact hmade (makesVirtualDestructor_iff.mpr (Or.inl ⟨d, hd, Or.inr (hs.declared _ hDd)⟩))
  · intro k base hkdone hbase hvirtual
    rw [toClassTable_inferClass] at hbase
    -- a base has had its turn before, so this turn is not what made its destructor virtual
    have hbdone : base ∈ done := by
      rcases List.mem_append.mp hkdone with hkdone | hlast
      · exact (hdone.above hkdone (.single hbase)).1
      · exact hbases base (List.mem_singleton.mp hlast ▸ hbase)
    have hbefore : base ∈ h.virtualDestructors := by
      rcases mem_virtualDestructors_inferClass.mp hvirtual with hv | ⟨rfl, -⟩
      · exact hv
      · exact absurd (hkey ▸ hbdone) hnew
    rcases List.mem_append.mp hkdone with hkdone | hlast
    · exact hgrow _ (hs.inherited k base hkdone hbase hbefore)
    · obtain rfl := List.mem_singleton.mp hlast
      obtain ⟨e, he, hbe⟩ := ClassTable.mem_basesOf.mp hbase.1
      obtain rfl := Option.some.inj (he.symm.trans hc)
      exact hmade (makesVirtualDestructor_iff.mpr (Or.inr ⟨base, hbe, hbefore⟩))
  · intro e he hvirtual d hd
    rw [toClassTable_inferClass] at he
    rcases mem_virtualDestructors_inferClass.mp hvirtual with hv | ⟨hek, hmakes⟩
    · exact virtuals_subset_inferClass (hs.marked e he hv d hd)
    · obtain rfl := hsame e he (hek.trans hkey)
      rw [inferClass_eq, mem_virtuals_noteOverrides, if_pos hmakes]
      exact Or.inl (mem_virtuals_markDestructor.mpr (Or.inr ⟨d, hd, rfl⟩))

theorem Settled.inferKey (hs : Settled D done h) (hk : h.keys.Nodup) (hdone : h.Ordered done)
    {key : String} (hnew : key ∉ done) (hbases : ∀ base, h.HasBase key base → base ∈ done) :
    Settled D (done ++ [key]) (h.inferKey key) := by
  rw [Hierarchy.inferKey]
  split
  · next c hc => exact hs.inferClass hk hdone hnew hbases hc
  · next hnone =>
    -- a class that is not in the table has neither a record nor a base
    have hunknown := ClassTable.class?_eq_none_iff.mp hnone
    refine ⟨hs.declared, fun k hk => List.mem_append_left _ (hs.had k hk), ?_, ?_, hs.marked⟩
    · intro e he hedone
      rcases List.mem_append.mp hedone with hedone | hlast
      · exact hs.own e he hedone
      · exact absurd (List.mem_singleton.mp hlast ▸ List.mem_map_of_mem he) hunknown
    · intro k base hkdone hbase
      rcases List.mem_append.mp hkdone with hkdone | hlast
      · exact hs.inherited k base hkdone hbase
      · exact absurd (List.mem_singleton.mp hlast ▸ ClassTable.mem_keys_of_mem_basesOf hbase.1)
          hunknown

theorem settled_foldl (hk : h.keys.Nodup) (hstart : Settled D [] h) (hdone : h.Ordered done) :
    Settled D done (done.foldl Hierarchy.inferKey h) := by
  induction hdone with
  | nil => exact hstart
  | snoc hdone hnew hbases ih =>
      rw [List.foldl_append]
      refine ih.inferKey ?_ ?_ hnew ?_
      · rw [toClassTable_foldl_inferKey]
        exact hk
      · rw [toClassTable_foldl_inferKey]
        exact hdone
      · rw [toClassTable_foldl_inferKey]
        exact hbases

end Turns

/-! ## Main statements -/

theorem overrides_subset_foldl {o : Override} :
    ∀ (order : List String) {h : Hierarchy}, o ∈ h.overrides →
      o ∈ (order.foldl Hierarchy.inferKey h).overrides
  | [], _, ho => ho
  | _ :: order, _, ho => overrides_subset_foldl order (overrides_subset_inferKey ho)

/-- No function overrides itself. -/
theorem overrider_ne_base_foldl {o : Override} :
    ∀ (order : List String) {h : Hierarchy}, (∀ o ∈ h.overrides, o.overrider ≠ o.base) →
      o ∈ (order.foldl Hierarchy.inferKey h).overrides → o.overrider ≠ o.base
  | [], _, hstart, ho => hstart o ho
  | key :: order, h, hstart, ho => by
      refine overrider_ne_base_foldl order (h := h.inferKey key) ?_ ho
      refine inferKey_induction (P := fun x => ∀ o ∈ x.overrides, o.overrider ≠ o.base) key hstart
        ?_
      intro c _ p hp
      exact (mem_overrides_inferClass.mp hp).elim (hstart p) (·.2)

namespace Built

variable {classes : List ClassRecord} {functions : List FunctionRecord} {order : List String}
  {h : Hierarchy}

theorem eq_foldl_declared (hb : Built classes functions order h) :
    h = order.foldl inferKey (declared h.toClassTable functions) := by
  rw [hb.toClassTable_eq, ← hb.eq_foldl]

theorem ordered_declared (hb : Built classes functions order h) :
    (declared h.toClassTable functions).Ordered order := by
  rw [toClassTable_declared, hb.toClassTable_eq]
  exact hb.ordered

theorem justified (hb : Built classes functions order h) (hown : h.OwnedOnce) :
    Justified (DeclaredVirtual h.toClassTable functions) order h := by
  have hsaid : ∀ c ∈ (declared h.toClassTable functions).records, ∀ d, c.destructor = some d →
      d.isVirtual = true → DeclaredVirtual h.toClassTable functions d.function := by
    rw [toClassTable_declared]
    exact fun c hc d hd hv => Or.inl (mem_declaredVirtuals.mpr (Or.inr ⟨c, hc, d, hd, hv, rfl⟩))
  have hstart : Justified (DeclaredVirtual h.toClassTable functions) []
      (declared h.toClassTable functions) := by
    refine ⟨fun f hf => .declared (mem_virtuals_declared.mp hf), fun key hkey => ?_,
      fun f hf => Or.inl (mem_virtuals_declared.mp hf)⟩
    rw [virtualDestructors_declared] at hkey
    exact absurd hkey (SortedSet.not_mem_empty key)
  have hfold := justified_foldl (by rwa [toClassTable_declared]) hsaid hstart hb.ordered_declared
  rwa [← hb.eq_foldl_declared] at hfold

theorem settled (hb : Built classes functions order h) :
    Settled (DeclaredVirtual h.toClassTable functions) order h := by
  have hstart : Settled (DeclaredVirtual h.toClassTable functions) []
      (declared h.toClassTable functions) := by
    have hnone : ∀ key, key ∉ (declared h.toClassTable functions).virtualDestructors := by
      intro key
      rw [virtualDestructors_declared]
      exact SortedSet.not_mem_empty key
    exact ⟨fun f hf => mem_virtuals_declared.mpr hf, fun key hkey => absurd hkey (hnone key),
      fun _ _ hdone => absurd hdone List.not_mem_nil,
      fun _ _ hdone => absurd hdone List.not_mem_nil,
      fun c _ hkey => absurd hkey (hnone c.key)⟩
  have hfold := settled_foldl (by rw [toClassTable_declared]; exact hb.nodup_keys) hstart
    hb.ordered_declared
  rwa [← hb.eq_foldl_declared] at hfold

theorem mem_order (hb : Built classes functions order h) {key : String} (hkey : key ∈ h.keys) :
    key ∈ order := by
  rw [hb.toClassTable_eq] at hkey
  exact hb.complete hkey

/-- A class has a virtual destructor exactly if the rules give it one. -/
theorem mem_virtualDestructors_iff (hb : Built classes functions order h) (hown : h.OwnedOnce)
    {key : String} : key ∈ h.virtualDestructors ↔
      h.DestructorVirtual (DeclaredVirtual h.toClassTable functions) key := by
  refine ⟨(hb.justified hown).destructors key, fun hvirtual => ?_⟩
  induction hvirtual with
  | own hc hd hsaid =>
      obtain ⟨hmem, rfl⟩ := ClassTable.class?_eq_some hc
      exact hb.settled.own _ hmem (hb.mem_order (ClassTable.mem_keys_of_class? hc)) _ hd hsaid
  | inherited hbase _ ih =>
      exact hb.settled.inherited _ _
        (hb.mem_order (ClassTable.mem_keys_of_mem_basesOf hbase.1)) hbase ih

/-- A function is virtual exactly if the rules make it so. -/
theorem mem_virtuals_iff (hb : Built classes functions order h) (hown : h.OwnedOnce)
    {f : FunctionKey} : f ∈ h.virtuals ↔
      h.IsVirtual (DeclaredVirtual h.toClassTable functions) f := by
  refine ⟨(hb.justified hown).virtuals f, fun hvirtual => ?_⟩
  induction hvirtual with
  | declared hsaid => exact hb.settled.declared _ hsaid
  | destructor hkey hc hd =>
      obtain ⟨hmem, rfl⟩ := ClassTable.class?_eq_some hc
      exact hb.settled.marked _ hmem ((hb.mem_virtualDestructors_iff hown).mpr hkey) _ hd
  | @overrider key name base c f g hc hdecl hbase hfinds _ ih =>
      by_cases heq : f = g
      · exact heq ▸ ih
      · have hstep : h.HasBase key base :=
          ⟨ClassTable.mem_basesOf.mpr ⟨c, hc, hbase⟩, hfinds.known⟩
        exact (hb.linksVirtual _ (hb.overrides_of_finds hown hc hdecl hstep hfinds ih heq)).1

theorem overrider_ne_base (hb : Built classes functions order h) {f g : FunctionKey}
    (hover : h.Overrides f g) : f ≠ g := by
  have hmem : (⟨f, g⟩ : Override) ∈ h.overrides := hover
  rw [hb.eq_foldl] at hmem
  exact overrider_ne_base_foldl order (fun o ho => (mem_overrides_declared.mp ho).2) hmem

/-- A function overrides another one exactly if a record says so, or if a class declares it under
a name for which the lookup from a base finds the other one, and that is virtual. -/
theorem overrides_iff (hb : Built classes functions order h) (hown : h.OwnedOnce)
    {f g : FunctionKey} : h.Overrides f g ↔ f ≠ g ∧
      (⟨f, g⟩ ∈ declaredOverrides functions ∨ ∃ key c name base, h.class? key = some c ∧
        (name, f) ∈ c.declarations ∧ base ∈ c.baseNames ∧ h.Finds name base g ∧
          g ∈ h.virtuals) := by
  constructor
  · intro hover
    refine ⟨hb.overrider_ne_base hover, (hb.overrides_cases hover).imp_right ?_⟩
    rintro ⟨c, hc, name, hdecl, base, hbase, hfinds⟩
    exact ⟨c.key, c, name, base, ClassTable.class?_of_mem hb.nodup_keys hc, hdecl, hbase, hfinds,
      (hb.linksVirtual _ hover).2⟩
  · rintro ⟨hne, hsaid | ⟨key, c, name, base, hc, hdecl, hbase, hfinds, hvirtual⟩⟩
    · show _ ∈ h.overrides
      rw [hb.eq_foldl]
      exact overrides_subset_foldl order (mem_overrides_declared.mpr ⟨hsaid, hne⟩)
    · exact hb.overrides_of_finds hown hc hdecl
        ⟨ClassTable.mem_basesOf.mpr ⟨c, hc, hbase⟩, hfinds.known⟩ hfinds hvirtual hne

end Built

end Hierarchy

end CallGraphs
