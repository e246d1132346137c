import CallGraphs.Proofs.Classes.Cycles
import CallGraphs.Proofs.Classes.Dispatch
import CallGraphs.Proofs.Classes.Joining
import CallGraphs.Proofs.Classes.Virtuality

/-!
# Parts of hierarchies

When all that a hierarchy says is said by another one too.

* A record is a part of another one of its class if the other one says as much
  and both answer alike under every name.  A table is a part of another one if
  every class of it is in the other one, with a record that its own is a part of.
  Deriving, lookup and the rules of virtuality carry over.
* A hierarchy is a part of another one if moreover what is virtual and who
  overrides whom carries over; so it is for hierarchies that were built from such
  tables (`Hierarchy.partOf_of_build`).  A dispatch has then at least the targets
  it had, and one that was uncertain stays so.
* Hierarchies that are parts of each other agree (`Hierarchy.Agree`): they know
  the same virtual functions and overriders, and calls are dispatched alike.
-/

namespace CallGraphs

open Relation

theorem forall_pairs_of_subset {α : Type} {P : α → α → Prop} {l l' : List α} (hsub : l ⊆ l')
    (h : ∀ a ∈ l', ∀ b ∈ l', P a b) : ∀ a ∈ l, ∀ b ∈ l, P a b :=
  fun a ha b hb => h a (hsub ha) b (hsub hb)

/-! ## Records and tables -/

/-- Another record says all that a record does, and answers alike under every name. -/
structure ClassRecord.PartOf (c c' : ClassRecord) : Prop where
  baseNames : c.baseNames ⊆ c'.baseNames
  declarations : c.declarations ⊆ c'.declarations
  members : c.members ⊆ c'.members
  destructor : ∀ d, c.destructor = some d → c'.destructor = some d
  declares? : ∀ name, c.declares? name = c'.declares? name

theorem ClassRecord.PartOf.refl (c : ClassRecord) : c.PartOf c :=
  ⟨List.Subset.refl _, List.Subset.refl _, List.Subset.refl _, fun _ => id, fun _ => rfl⟩

namespace ClassTable

/-- The classes of a table are in another one, with records that say as much. -/
def PartOf (t t' : ClassTable) : Prop :=
  ∀ key c, t.class? key = some c → ∃ c', t'.class? key = some c' ∧ c.PartOf c'

namespace PartOf

variable {t t' : ClassTable} (hp : t.PartOf t')
include hp

theorem keys {key : String} (h : key ∈ t.keys) : key ∈ t'.keys := by
  obtain ⟨c, hc⟩ : ∃ c, t.class? key = some c :=
    Option.ne_none_iff_exists'.mp fun hnone => class?_eq_none_iff.mp hnone h
  obtain ⟨c', hc', -⟩ := hp key c hc
  exact mem_keys_of_class? hc'

theorem contains {key : String} (h : t.contains key = true) : t'.contains key = true :=
  contains_iff.mpr (hp.keys (contains_iff.mp h))

/-- A record of the table is a part of one of the other table. -/
theorem records (hk : t.keys.Nodup) {c : ClassRecord} (h : c ∈ t.records) :
    ∃ c' ∈ t'.records, c'.key = c.key ∧ c.PartOf c' := by
  obtain ⟨c', hc', hpart⟩ := hp c.key c (class?_of_mem hk h)
  obtain ⟨hmem, hkey⟩ := class?_eq_some hc'
  exact ⟨c', hmem, hkey, hpart⟩

theorem hasBase {key base : String} (h : t.HasBase key base) : t'.HasBase key base := by
  obtain ⟨c, hc, hbase⟩ := mem_basesOf.mp h.1
  obtain ⟨c', hc', hpart⟩ := hp key c hc
  exact ⟨mem_basesOf.mpr ⟨c', hc', hpart.baseNames hbase⟩, hp.keys h.2⟩

theorem derivesFrom {key base : String} (h : t.DerivesFrom key base) : t'.DerivesFrom key base :=
  TransGen.mono (fun _ _ => hp.hasBase) _ _ h

theorem derivedClosure (hk : t.keys.Nodup) (hk' : t'.keys.Nodup) {key base : String}
    (h : key ∈ t.derivedClosure base) : key ∈ t'.derivedClosure base := by
  by_cases hbase : base ∈ t.keys
  · rw [mem_derivedClosure_iff hk hbase] at h
    rw [mem_derivedClosure_iff hk' (hp.keys hbase)]
    exact ReflTransGen.mono (fun _ _ => hp.hasBase) _ _ h
  · rw [ClassTable.derivedClosure, if_neg (mt contains_iff.mp hbase)] at h
    exact absurd h List.not_mem_nil

/-- A lookup that stops at a class of the table, or goes on from it, does the same in the other
one. -/
theorem finds {name key : String} {f : FunctionKey} (h : t.Finds name key f) :
    t'.Finds name key f := by
  induction h with
  | here hdecl =>
      obtain ⟨c, hc, hf⟩ := declaredIn?_eq_some.mp hdecl
      obtain ⟨c', hc', hpart⟩ := hp _ c hc
      exact .here (declaredIn?_eq_some.mpr ⟨c', hc', hpart.declares? name ▸ hf⟩)
  | above hnone hbase _ ih =>
      obtain ⟨c, hc, hmem⟩ := mem_basesOf.mp hbase
      obtain ⟨c', hc', hpart⟩ := hp _ c hc
      refine .above ?_ (mem_basesOf.mpr ⟨c', hc', hpart.baseNames hmem⟩) ih
      rw [declaredIn?, hc] at hnone
      rw [declaredIn?, hc']
      exact (hpart.declares? name).symm.trans hnone

variable {D D' : FunctionKey → Prop} (hD : ∀ f, D f → D' f)
include hD

theorem destructorVirtual {key : String} (h : t.DestructorVirtual D key) :
    t'.DestructorVirtual D' key := by
  induction h with
  | own hc hd hsaid =>
      obtain ⟨c', hc', hpart⟩ := hp _ _ hc
      exact .own hc' (hpart.destructor _ hd) (hD _ hsaid)
  | inherited hbase _ ih => exact .inherited (hp.hasBase hbase) ih

theorem isVirtual {f : FunctionKey} (h : t.IsVirtual D f) : t'.IsVirtual D' f := by
  induction h with
  | declared hsaid => exact .declared (hD _ hsaid)
  | destructor hkey hc hd =>
      obtain ⟨c', hc', hpart⟩ := hp _ _ hc
      exact .destructor (hp.destructorVirtual hD hkey) hc' (hpart.destructor _ hd)
  | overrider hc hdecl hbase hfinds _ ih =>
      obtain ⟨c', hc', hpart⟩ := hp _ _ hc
      exact .overrider hc' (hpart.declarations hdecl) (hpart.baseNames hbase) (hp.finds hfinds) ih

end PartOf

end ClassTable

/-! ## Hierarchies -/

namespace Hierarchy

/-- A hierarchy is a part of another one: its table is, and what is virtual and who overrides whom
carries over. -/
structure PartOf (h h' : Hierarchy) : Prop where
  classes : h.toClassTable.PartOf h'.toClassTable
  nodup_keys : h.keys.Nodup
  nodup_keys' : h'.keys.Nodup
  ownedOnce : h'.OwnedOnce
  virtuals : ∀ f ∈ h.virtuals, f ∈ h'.virtuals
  overrides : ∀ f g, h.Overrides f g → h'.Overrides f g
  virtualDestructors : ∀ key ∈ h.virtualDestructors, key ∈ h'.virtualDestructors

theorem declaredOverrides_subset {functions functions' : List FunctionRecord}
    (hsub : functions ⊆ functions') :
    declaredOverrides functions ⊆ declaredOverrides functions' := by
  intro o ho
  obtain ⟨r, hr, ho⟩ := List.mem_flatMap.mp ho
  exact List.mem_flatMap.mpr ⟨r, hsub hr, ho⟩

theorem DeclaredVirtual.of_partOf {t t' : ClassTable} {functions functions' : List FunctionRecord}
    (hp : t.PartOf t') (hk : t.keys.Nodup) (hsub : functions ⊆ functions') {f : FunctionKey}
    (h : DeclaredVirtual t functions f) : DeclaredVirtual t' functions' f := by
  rcases h with h | ⟨o, ho, hf⟩
  · refine Or.inl (mem_declaredVirtuals.mpr ?_)
    rcases mem_declaredVirtuals.mp h with ⟨r, hr, hv⟩ | ⟨c, hc, d, hd, hv⟩
    · exact Or.inl ⟨r, hsub hr, hv⟩
    · obtain ⟨c', hc', -, hpart⟩ := hp.records hk hc
      exact Or.inr ⟨c', hc', d, hpart.destructor d hd, hv⟩
  · exact Or.inr ⟨o, declaredOverrides_subset hsub ho, hf⟩

/-- If a hierarchy can be built, so can one whose table is a part of its table. -/
theorem exists_build_of_partOf {classes classes' : List ClassRecord}
    {functions functions' : List FunctionRecord}
    (htables : (ClassTable.ofRecords classes).PartOf (ClassTable.ofRecords classes'))
    (hbuild : ∃ h, build classes' functions' = .ok h) : ∃ h, build classes functions = .ok h := by
  rw [exists_build_iff] at hbuild ⊢
  intro key hself
  exact hbuild key (htables.derivesFrom hself)

/-- If the table of some records is a part of that of others, and the function records are among
the others, so is the hierarchy; no function may be a member of two classes. -/
theorem partOf_of_build {classes classes' : List ClassRecord}
    {functions functions' : List FunctionRecord} {h h' : Hierarchy}
    (hbuild : build classes functions = .ok h) (hbuild' : build classes' functions' = .ok h')
    (htables : (ClassTable.ofRecords classes).PartOf (ClassTable.ofRecords classes'))
    (hfunctions : functions ⊆ functions') (hlisted : ListedByOneClass classes)
    (hlisted' : ListedByOneClass classes') : h.PartOf h' := by
  obtain ⟨order, hb⟩ := exists_built hbuild
  obtain ⟨order', hb'⟩ := exists_built hbuild'
  have hown := hb.ownedOnce hlisted
  have hown' := hb'.ownedOnce hlisted'
  have hp : h.toClassTable.PartOf h'.toClassTable := by
    rwa [hb.toClassTable_eq, hb'.toClassTable_eq]
  have hsaid : ∀ f, DeclaredVirtual h.toClassTable functions f →
      DeclaredVirtual h'.toClassTable functions' f := fun f hf =>
    hf.of_partOf hp hb.nodup_keys hfunctions
  have hvirtuals : ∀ f ∈ h.virtuals, f ∈ h'.virtuals := fun f hf =>
    (hb'.mem_virtuals_iff hown').mpr (hp.isVirtual hsaid ((hb.mem_virtuals_iff hown).mp hf))
  refine ⟨hp, hb.nodup_keys, hb'.nodup_keys, hown', hvirtuals, fun f g hover => ?_,
    fun key hkey => ?_⟩
  · obtain ⟨hne, hcause⟩ := (hb.overrides_iff hown).mp hover
    refine (hb'.overrides_iff hown').mpr ⟨hne, hcause.imp (fun h => ?_) ?_⟩
    · exact declaredOverrides_subset hfunctions h
    · rintro ⟨key, c, name, base, hc, hdecl, hbase, hfinds, hv⟩
      obtain ⟨c', hc', hpart⟩ := hp key c hc
      exact ⟨key, c', name, base, hc', hpart.declarations hdecl, hpart.baseNames hbase,
        hp.finds hfinds, hvirtuals g hv⟩
  · exact (hb'.mem_virtualDestructors_iff hown').mpr
      (hp.destructorVirtual hsaid ((hb.mem_virtualDestructors_iff hown).mp hkey))

/-! ## Calls -/

/-- A call is dispatched exactly if the lookup of the method finds something. -/
theorem exists_dispatch_iff {h : Hierarchy} {receiver method : String} :
    (∃ d, h.dispatch receiver method = .ok d) ↔ ∃ f, h.Finds method receiver f := by
  constructor
  · rintro ⟨d, hd⟩
    rw [dispatch] at hd
    split at hd
    · exact absurd hd (by simp)
    · split at hd
      · exact absurd hd (by simp)
      · next hsome =>
        obtain ⟨f, hf⟩ := List.exists_mem_of_ne_nil _ hsome
        exact ⟨f, ClassTable.mem_nearest_iff.mp hf⟩
  · rintro ⟨f, hf⟩
    have hknown : h.contains receiver = true := ClassTable.contains_iff.mpr hf.known
    have hmem := ClassTable.mem_nearest_iff.mpr hf
    rw [dispatch, hknown]
    split
    · next hunknown => exact absurd hunknown (by simp)
    · split
      · next hnone => exact absurd (hnone ▸ hmem) List.not_mem_nil
      · exact ⟨_, rfl⟩

/-- A set that has a member, but not one only, has two. -/
theorem exists_ne_of_size_ne_one {s : SortedSet FunctionKey} {f : FunctionKey} (hf : f ∈ s)
    (hsize : s.size ≠ 1) : ∃ g ∈ s, ∃ g' ∈ s, g ≠ g' := by
  obtain ⟨l, hl⟩ := s
  match l, hl with
  | [], _ => exact absurd hf List.not_mem_nil
  | [_], _ => exact absurd rfl hsize
  | g :: g' :: _, hl =>
      have hlt : compare g g' = .lt := (List.pairwise_cons.mp hl).1 g' List.mem_cons_self
      refine ⟨g, List.mem_cons_self, g', List.mem_cons_of_mem _ List.mem_cons_self, ?_⟩
      rintro rfl
      exact absurd hlt (by simp)

theorem mem_memberPointerTargets_none {h : Hierarchy} {f g : FunctionKey} :
    g ∈ h.memberPointerTargets f none ↔
      g = f ∨ f ∈ h.virtuals ∧ TransGen h.Overrides g f := by
  rw [memberPointerTargets, List.mem_cons]
  refine or_congr Iff.rfl ?_
  split
  · next hv =>
    rw [← SortedSet.mem_def, mem_overriders_iff]
    exact (and_iff_right (isVirtual_iff.mp hv)).symm
  · next hv =>
    simp only [List.not_mem_nil, false_iff, not_and]
    exact fun hmem => absurd (isVirtual_iff.mpr hmem) hv

namespace PartOf

variable {h h' : Hierarchy} (hp : h.PartOf h')
include hp

theorem transGen_overrides {f g : FunctionKey} (hover : TransGen h.Overrides f g) :
    TransGen h'.Overrides f g :=
  TransGen.mono hp.overrides _ _ hover

theorem derivedClosure {key base : String} (h : key ∈ h.derivedClosure base) :
    key ∈ h'.derivedClosure base :=
  hp.classes.derivedClosure hp.nodup_keys hp.nodup_keys' h

theorem owner? {f : FunctionKey} {key : String} (howner : h.owner? f = some key) :
    h'.owner? f = some key := by
  obtain ⟨c, hc, rfl⟩ := Option.map_eq_some_iff.mp howner
  have hmem : c ∈ h.records := List.mem_reverse.mp (List.mem_of_find?_eq_some hc)
  have hf : f ∈ c.members := by simpa using List.find?_some hc
  obtain ⟨c', hmem', hkey, hpart⟩ := hp.classes.records hp.nodup_keys hmem
  exact hkey ▸ hp.ownedOnce.owner? hmem' (hpart.members hf)

theorem ownedWithin {base : String} {f : FunctionKey}
    (howned : h.ownedWithin (h.derivedClosure base) f = true) :
    h'.ownedWithin (h'.derivedClosure base) f = true := by
  obtain ⟨key, hkey, howner⟩ := ownedWithin_iff.mp howned
  exact ownedWithin_iff.mpr ⟨key, hp.derivedClosure hkey, hp.owner? howner⟩

/-- Whatever a member pointer may run, it may run in the whole. -/
theorem memberPointerTargets {f g : FunctionKey} {receiver : Option String}
    (hg : g ∈ h.memberPointerTargets f receiver) : g ∈ h'.memberPointerTargets f receiver := by
  cases receiver with
  | some key =>
      refine mem_memberPointerTargets_some.mpr ((mem_memberPointerTargets_some.mp hg).imp_right ?_)
      rintro ⟨hv, hover, howned⟩
      exact ⟨hp.virtuals f hv, hp.transGen_overrides hover, hp.ownedWithin howned⟩
  | none =>
      refine mem_memberPointerTargets_none.mpr ((mem_memberPointerTargets_none.mp hg).imp_right ?_)
      rintro ⟨hv, hover⟩
      exact ⟨hp.virtuals f hv, hp.transGen_overrides hover⟩

/-- A call that is dispatched is dispatched in the whole too, with no target less, and to several
if there were several. -/
theorem dispatch {receiver method : String} {d : Dispatch}
    (hd : h.dispatch receiver method = .ok d) :
    ∃ d', h'.dispatch receiver method = .ok d' ∧ (∀ f ∈ d.targets, f ∈ d'.targets) ∧
      (d.confidence = .may → d'.confidence = .may) := by
  obtain ⟨g, hg⟩ := exists_dispatch_iff.mp ⟨d, hd⟩
  obtain ⟨d', hd'⟩ := exists_dispatch_iff.mpr ⟨g, hp.classes.finds hg⟩
  obtain ⟨-, htargets, hdefinite⟩ := dispatched hd
  obtain ⟨-, htargets', hdefinite'⟩ := dispatched hd'
  have hsub : ∀ f ∈ d.targets, f ∈ d'.targets := by
    intro f hf
    obtain ⟨e, he, hfe⟩ := (htargets f).mp hf
    refine (htargets' f).mpr ⟨e, hp.classes.finds he, hfe.imp_right ?_⟩
    rintro ⟨hv, hover, howned⟩
    exact ⟨hp.virtuals e hv, hp.transGen_overrides hover, hp.ownedWithin howned⟩
  refine ⟨d', hd', hsub, fun hmay => ?_⟩
  have hseveral : d.targets.size ≠ 1 := fun hone => by
    rw [hdefinite.mpr hone] at hmay
    exact absurd hmay (by simp)
  obtain ⟨e, he, e', he', hne⟩ :=
    exists_ne_of_size_ne_one ((htargets g).mpr ⟨g, hg, Or.inl rfl⟩) hseveral
  cases hconfidence : d'.confidence with
  | may => rfl
  | definite =>
      exact absurd (hdefinite'.mp hconfidence) (size_ne_one (hsub e he) (hsub e' he') hne)

end PartOf

/-! ## Parts of each other -/

/-- Two hierarchies are parts of each other. -/
structure Agree (h h' : Hierarchy) : Prop where
  forth : h.PartOf h'
  back : h'.PartOf h

/-- What a call without candidates fails for depends on the class only. -/
theorem error_of_dispatch {h : Hierarchy} {receiver method : String} {e : DispatchFailure}
    (hd : h.dispatch receiver method = .error e) :
    e = if h.contains receiver then .unknownMethod else .unknownClass := by
  rw [dispatch] at hd
  cases hknown : h.contains receiver with
  | false =>
      rw [hknown] at hd
      exact (Except.error.inj hd).symm
  | true =>
      rw [hknown] at hd
      split at hd
      · next hunknown => exact absurd hunknown (by simp)
      · split at hd
        · exact (Except.error.inj hd).symm
        · exact absurd hd (by simp)

namespace Agree

variable {h h' : Hierarchy} (ha : h.Agree h')
include ha

theorem symm : h'.Agree h := ⟨ha.back, ha.forth⟩

theorem contains_eq (key : String) : h.contains key = h'.contains key :=
  Bool.eq_iff_iff.mpr ⟨ha.forth.classes.contains, ha.back.classes.contains⟩

theorem mem_derivedClosure_iff {key base : String} :
    key ∈ h.derivedClosure base ↔ key ∈ h'.derivedClosure base :=
  ⟨ha.forth.derivedClosure, ha.back.derivedClosure⟩

theorem virtuals_eq : h.virtuals = h'.virtuals :=
  SortedSet.eq_of_forall_mem_iff fun f => ⟨ha.forth.virtuals f, ha.back.virtuals f⟩

theorem virtualDestructors_eq : h.virtualDestructors = h'.virtualDestructors :=
  SortedSet.eq_of_forall_mem_iff fun key =>
    ⟨ha.forth.virtualDestructors key, ha.back.virtualDestructors key⟩

theorem overrides_eq : h.overrides = h'.overrides :=
  SortedSet.eq_of_forall_mem_iff fun o =>
    ⟨ha.forth.overrides o.overrider o.base, ha.back.overrides o.overrider o.base⟩

theorem overriders_eq (f : FunctionKey) : h.overriders f = h'.overriders f := by
  refine SortedSet.eq_of_forall_mem_iff fun g => ?_
  rw [mem_overriders_iff, mem_overriders_iff]
  exact ⟨ha.forth.transGen_overrides, ha.back.transGen_overrides⟩

theorem ownedWithin_eq (base : String) :
    h.ownedWithin (h.derivedClosure base) = h'.ownedWithin (h'.derivedClosure base) :=
  funext fun _ => Bool.eq_iff_iff.mpr ⟨ha.forth.ownedWithin, ha.back.ownedWithin⟩

theorem memberPointerTargets_eq (f : FunctionKey) (receiver : Option String) :
    h.memberPointerTargets f receiver = h'.memberPointerTargets f receiver := by
  have hvirtual : h.isVirtual f = h'.isVirtual f := by
    rw [isVirtual, isVirtual, ha.virtuals_eq]
  unfold memberPointerTargets
  cases receiver with
  | none => rw [hvirtual, ha.overriders_eq]
  | some key => simp only [hvirtual, ha.overriders_eq, ha.ownedWithin_eq]

/-- A call that is dispatched in one of the hierarchies is dispatched alike in the other one. -/
theorem dispatch_of_ok {receiver method : String} {d : Dispatch}
    (hd : h.dispatch receiver method = .ok d) : h'.dispatch receiver method = .ok d := by
  obtain ⟨d', hd', hsub, hmay⟩ := ha.forth.dispatch hd
  obtain ⟨d'', hd'', hsub', hmay'⟩ := ha.back.dispatch hd'
  obtain rfl := Except.ok.inj (hd''.symm.trans hd)
  have htargets : d'.targets = d''.targets :=
    SortedSet.eq_of_forall_mem_iff fun f => ⟨hsub' f, hsub f⟩
  have hconfidence : d'.confidence = d''.confidence := by
    cases hc : d''.confidence with
    | may => exact hmay hc
    | definite =>
        cases hc' : d'.confidence with
        | definite => rfl
        | may => exact absurd ((hmay' hc').symm.trans hc) (by simp)
  obtain ⟨targets', confidence'⟩ := d'
  obtain rfl : targets' = d''.targets := htargets
  obtain rfl : confidence' = d''.confidence := hconfidence
  exact hd'

theorem dispatch_eq (receiver method : String) :
    h.dispatch receiver method = h'.dispatch receiver method := by
  cases hd : h.dispatch receiver method with
  | ok d => exact (ha.dispatch_of_ok hd).symm
  | error e =>
      cases hd' : h'.dispatch receiver method with
      | ok d => exact absurd ((ha.symm.dispatch_of_ok hd').symm.trans hd) (by simp)
      | error e' => rw [error_of_dispatch hd, error_of_dispatch hd', ha.contains_eq]

end Agree

end Hierarchy

end CallGraphs
