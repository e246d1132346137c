import CallGraphs.Classes.Dispatch
import CallGraphs.Proofs.Classes.Inheritance

/-!
# Overriding

What a hierarchy that was built knows of virtual functions and of overriding.

An override link is declared by a function record, or it was inferred: some
class declares the overrider under a name, and the lookup of that name at or
above one of its bases finds the overridden function
(`Hierarchy.Built.overrides_cases`).  Whether a link is inferred depends on
what is known to be virtual when the turn of the class comes.  Where no
function belongs to two classes this makes no difference: all that decides
whether a function is virtual happens at the class it belongs to, which has
had its turn before any class below it.  So every declaration overrides every
virtual one that its bases find, by the final sets
(`Hierarchy.Built.overrides_of_finds`).
-/

namespace CallGraphs

open Relation

instance : Std.LawfulEqOrd Override where
  eq_of_compare {a b} h := by
    have h' : (compare a.overrider b.overrider).then (compare a.base b.base) = .eq := h
    rw [Ordering.then_eq_eq] at h'
    obtain ⟨h₁, h₂⟩ := h'
    cases a with
    | mk f g =>
        cases b with
        | mk f' g' =>
            have hf : f = f' := Std.LawfulEqOrd.eq_of_compare h₁
            have hg : g = g' := Std.LawfulEqOrd.eq_of_compare h₂
            rw [hf, hg]

namespace ClassTable

/-- No function is a member of two classes. -/
def OwnedOnce (t : ClassTable) : Prop :=
  ∀ c ∈ t.records, ∀ d ∈ t.records, ∀ f, f ∈ c.members → f ∈ d.members → c.key = d.key

instance (t : ClassTable) : Decidable t.OwnedOnce :=
  inferInstanceAs (Decidable (∀ c ∈ t.records, ∀ d ∈ t.records, ∀ f ∈ c.members, f ∈ d.members →
    c.key = d.key))

/-- Then the owner of a function is the class that has it for a member. -/
theorem OwnedOnce.owner? {t : ClassTable} (h : t.OwnedOnce) {c : ClassRecord} {f : FunctionKey}
    (hc : c ∈ t.records) (hf : f ∈ c.members) : t.owner? f = some c.key := by
  rw [ClassTable.owner?]
  cases hfind : t.records.reverse.find? (·.members.contains f) with
  | none =>
      have := List.find?_eq_none.mp hfind c (List.mem_reverse.mpr hc)
      exact absurd hf (by simpa using this)
  | some d =>
      have hd : d ∈ t.records := List.mem_reverse.mp (List.mem_of_find?_eq_some hfind)
      have hfd : f ∈ d.members := by simpa using List.find?_some hfind
      exact congrArg some (h d hd c hc f hfd hf)

end ClassTable

namespace Hierarchy

/-! ## Single steps -/

theorem mem_virtuals_markVirtual {h : Hierarchy} {f g : FunctionKey} :
    f ∈ (h.markVirtual g).virtuals ↔ f = g ∨ f ∈ h.virtuals :=
  SortedSet.mem_insert

@[simp]
theorem overrides_markVirtual (h : Hierarchy) (f : FunctionKey) :
    (h.markVirtual f).overrides = h.overrides := rfl

@[simp]
theorem toClassTable_markVirtual (h : Hierarchy) (f : FunctionKey) :
    (h.markVirtual f).toClassTable = h.toClassTable := rfl

theorem mem_overrides_addOverride {h : Hierarchy} {o p : Override} :
    p ∈ (h.addOverride o).overrides ↔ p ∈ h.overrides ∨ p = o ∧ o.overrider ≠ o.base := by
  rw [addOverride]
  split
  · next he => simp [he]
  · next he => simp [he, SortedSet.mem_insert, or_comm]

@[simp]
theorem virtuals_addOverride (h : Hierarchy) (o : Override) :
    (h.addOverride o).virtuals = h.virtuals := by
  rw [addOverride]
  split
  · rfl
  · rfl

@[simp]
theorem toClassTable_addOverride (h : Hierarchy) (o : Override) :
    (h.addOverride o).toClassTable = h.toClassTable := by
  rw [addOverride]
  split
  · rfl
  · rfl

/-! ## Turns of classes -/

/-- Records the overrides that were found, and that their overriders are virtual. -/
def noteOverrides (h : Hierarchy) (found : List Override) : Hierarchy :=
  found.foldl (fun h o => (h.markVirtual o.overrider).addOverride o) h

@[simp]
theorem toClassTable_noteOverrides : ∀ (found : List Override) (h : Hierarchy),
    (h.noteOverrides found).toClassTable = h.toClassTable
  | [], _ => rfl
  | o :: found, h => by
      show (((h.markVirtual o.overrider).addOverride o).noteOverrides found).toClassTable = _
      rw [toClassTable_noteOverrides found]
      simp

theorem mem_virtuals_noteOverrides {f : FunctionKey} :
    ∀ {found : List Override} {h : Hierarchy},
      f ∈ (h.noteOverrides found).virtuals ↔ f ∈ h.virtuals ∨ ∃ o ∈ found, o.overrider = f
  | [], h => by simp [noteOverrides]
  | o :: found, h => by
      show f ∈ (((h.markVirtual o.overrider).addOverride o).noteOverrides found).virtuals ↔ _
      rw [mem_virtuals_noteOverrides, virtuals_addOverride, mem_virtuals_markVirtual]
      simp only [List.mem_cons, exists_eq_or_imp]
      constructor
      · rintro ((rfl | h) | h)
        · exact Or.inr (Or.inl rfl)
        · exact Or.inl h
        · exact Or.inr (Or.inr h)
      · rintro (h | rfl | h)
        · exact Or.inl (Or.inr h)
        · exact Or.inl (Or.inl rfl)
        · exact Or.inr h

theorem mem_overrides_noteOverrides {p : Override} :
    ∀ {found : List Override} {h : Hierarchy},
      p ∈ (h.noteOverrides found).overrides ↔
        p ∈ h.overrides ∨ p ∈ found ∧ p.overrider ≠ p.base
  | [], h => by simp [noteOverrides]
  | o :: found, h => by
      show p ∈ (((h.markVirtual o.overrider).addOverride o).noteOverrides found).overrides ↔ _
      rw [mem_overrides_noteOverrides, mem_overrides_addOverride, overrides_markVirtual,
        List.mem_cons]
      constructor
      · rintro ((h | ⟨rfl, hne⟩) | ⟨h, hne⟩)
        · exact Or.inl h
        · exact Or.inr ⟨Or.inl rfl, hne⟩
        · exact Or.inr ⟨Or.inr h, hne⟩
      · rintro (h | ⟨rfl | h, hne⟩)
        · exact Or.inl (Or.inl h)
        · exact Or.inl (Or.inr ⟨rfl, hne⟩)
        · exact Or.inr ⟨h, hne⟩

@[simp]
theorem toClassTable_markDestructor (h : Hierarchy) (c : ClassRecord) :
    (h.markDestructor c).toClassTable = h.toClassTable := by
  rw [markDestructor]
  split
  · rfl
  · rfl

@[simp]
theorem overrides_markDestructor (h : Hierarchy) (c : ClassRecord) :
    (h.markDestructor c).overrides = h.overrides := by
  rw [markDestructor]
  split
  · rfl
  · rfl

theorem mem_virtuals_markDestructor {h : Hierarchy} {c : ClassRecord} {f : FunctionKey} :
    f ∈ (h.markDestructor c).virtuals ↔
      f ∈ h.virtuals ∨ ∃ d, c.destructor = some d ∧ d.function = f := by
  rw [markDestructor]
  split
  · next d hd => simp [mem_virtuals_markVirtual, hd, or_comm, eq_comm]
  · next hd => simp [hd]

theorem inferClass_eq (h : Hierarchy) (c : ClassRecord) :
    h.inferClass c = (if h.makesVirtualDestructor c then h.markDestructor c else h).noteOverrides
      (h.overridesBy c) := rfl

theorem mem_overridesBy {h : Hierarchy} {c : ClassRecord} {o : Override} :
    o ∈ h.overridesBy c ↔ ∃ name, (name, o.overrider) ∈ c.declarations ∧
      ∃ base ∈ c.baseNames, h.Finds name base o.base ∧ o.base ∈ h.virtuals := by
  cases o with
  | mk f g =>
      simp only [overridesBy, List.mem_flatMap, List.mem_map, List.mem_filter, Prod.exists,
        Override.mk.injEq, ClassTable.mem_nearest_iff, decide_eq_true_eq]
      constructor
      · rintro ⟨name, f', hdecl, base, hbase, g', ⟨hfinds, hvirt⟩, rfl, rfl⟩
        exact ⟨name, hdecl, base, hbase, hfinds, hvirt⟩
      · rintro ⟨name, hdecl, base, hbase, hfinds, hvirt⟩
        exact ⟨name, f, hdecl, base, hbase, g, ⟨hfinds, hvirt⟩, rfl, rfl⟩

@[simp]
theorem toClassTable_inferClass (h : Hierarchy) (c : ClassRecord) :
    (h.inferClass c).toClassTable = h.toClassTable := by
  rw [inferClass_eq, toClassTable_noteOverrides]
  split
  · exact toClassTable_markDestructor h c
  · rfl

theorem mem_overrides_inferClass {h : Hierarchy} {c : ClassRecord} {o : Override} :
    o ∈ (h.inferClass c).overrides ↔
      o ∈ h.overrides ∨ o ∈ h.overridesBy c ∧ o.overrider ≠ o.base := by
  rw [inferClass_eq, mem_overrides_noteOverrides]
  split
  · rw [overrides_markDestructor]
  · rfl

theorem virtuals_subset_inferClass {h : Hierarchy} {c : ClassRecord} {f : FunctionKey}
    (hf : f ∈ h.virtuals) : f ∈ (h.inferClass c).virtuals := by
  rw [inferClass_eq, mem_virtuals_noteOverrides]
  refine Or.inl ?_
  split
  · exact mem_virtuals_markDestructor.mpr (Or.inl hf)
  · exact hf

/-- The turn of a class makes none but its own members virtual. -/
theorem mem_virtuals_inferClass {h : Hierarchy} {c : ClassRecord} {f : FunctionKey}
    (hf : f ∈ (h.inferClass c).virtuals) : f ∈ h.virtuals ∨ f ∈ c.members := by
  rw [inferClass_eq, mem_virtuals_noteOverrides] at hf
  rcases hf with hf | ⟨o, ho, rfl⟩
  · split at hf
    · rcases mem_virtuals_markDestructor.mp hf with hf | hd
      · exact Or.inl hf
      · exact Or.inr (ClassRecord.mem_members.mpr (Or.inr (Or.inr hd)))
    · exact Or.inl hf
  · obtain ⟨name, hdecl, -⟩ := mem_overridesBy.mp ho
    exact Or.inr (ClassRecord.mem_members_of_mem_declarations hdecl)

/-- Both ends of every override link are virtual. -/
def LinksVirtual (h : Hierarchy) : Prop :=
  ∀ o ∈ h.overrides, o.overrider ∈ h.virtuals ∧ o.base ∈ h.virtuals

theorem LinksVirtual.inferClass {h : Hierarchy} (hl : h.LinksVirtual) (c : ClassRecord) :
    (h.inferClass c).LinksVirtual := by
  intro o ho
  rcases mem_overrides_inferClass.mp ho with ho | ⟨ho, -⟩
  · obtain ⟨h₁, h₂⟩ := hl o ho
    exact ⟨virtuals_subset_inferClass h₁, virtuals_subset_inferClass h₂⟩
  · constructor
    · rw [inferClass_eq, mem_virtuals_noteOverrides]
      exact Or.inr ⟨o, ho, rfl⟩
    · obtain ⟨-, -, -, -, -, hvirt⟩ := mem_overridesBy.mp ho
      exact virtuals_subset_inferClass hvirt

/-- A property of hierarchies that the turn of every class keeps. -/
theorem inferKey_induction {P : Hierarchy → Prop} {h : Hierarchy} (key : String) (hp : P h)
    (step : ∀ c, h.class? key = some c → P (h.inferClass c)) : P (h.inferKey key) := by
  rw [inferKey]
  split
  · next c hc => exact step c hc
  · exact hp

@[simp]
theorem toClassTable_inferKey (h : Hierarchy) (key : String) :
    (h.inferKey key).toClassTable = h.toClassTable :=
  inferKey_induction (P := fun x => x.toClassTable = h.toClassTable) key rfl
    fun c _ => toClassTable_inferClass h c

@[simp]
theorem toClassTable_foldl_inferKey : ∀ (order : List String) (h : Hierarchy),
    (order.foldl inferKey h).toClassTable = h.toClassTable
  | [], _ => rfl
  | key :: order, h => by
      rw [List.foldl_cons, toClassTable_foldl_inferKey order, toClassTable_inferKey]

theorem LinksVirtual.foldl_inferKey :
    ∀ (order : List String) {h : Hierarchy}, h.LinksVirtual →
      (order.foldl Hierarchy.inferKey h).LinksVirtual
  | [], _, hl => hl
  | key :: order, _, hl =>
      LinksVirtual.foldl_inferKey order (inferKey_induction key hl fun c _ => hl.inferClass c)

/-! ## Declared links -/

/-- Records the overrides that function records declare, and that both their ends are virtual. -/
def noteDeclared (h : Hierarchy) (declared : List Override) : Hierarchy :=
  declared.foldl (fun h o => ((h.markVirtual o.overrider).markVirtual o.base).addOverride o) h

theorem declared_eq (t : ClassTable) (functions : List FunctionRecord) :
    declared t functions =
      ({ toClassTable := t, virtuals := .ofList (declaredVirtuals t functions) } :
        Hierarchy).noteDeclared (declaredOverrides functions) := rfl

theorem toClassTable_noteDeclared : ∀ (l : List Override) (h : Hierarchy),
    (h.noteDeclared l).toClassTable = h.toClassTable
  | [], _ => rfl
  | o :: l, h => by
      show ((((h.markVirtual o.overrider).markVirtual o.base).addOverride o).noteDeclared
        l).toClassTable = _
      rw [toClassTable_noteDeclared l]
      simp

theorem mem_overrides_noteDeclared {p : Override} :
    ∀ {l : List Override} {h : Hierarchy},
      p ∈ (h.noteDeclared l).overrides ↔ p ∈ h.overrides ∨ p ∈ l ∧ p.overrider ≠ p.base
  | [], h => by simp [noteDeclared]
  | o :: l, h => by
      show p ∈ ((((h.markVirtual o.overrider).markVirtual o.base).addOverride o).noteDeclared
        l).overrides ↔ _
      rw [mem_overrides_noteDeclared, mem_overrides_addOverride, overrides_markVirtual,
        overrides_markVirtual, List.mem_cons]
      constructor
      · rintro ((h | ⟨rfl, hne⟩) | ⟨h, hne⟩)
        · exact Or.inl h
        · exact Or.inr ⟨Or.inl rfl, hne⟩
        · exact Or.inr ⟨Or.inr h, hne⟩
      · rintro (h | ⟨rfl | h, hne⟩)
        · exact Or.inl (Or.inl h)
        · exact Or.inl (Or.inr ⟨rfl, hne⟩)
        · exact Or.inr ⟨h, hne⟩

theorem LinksVirtual.noteDeclared :
    ∀ (l : List Override) {h : Hierarchy}, h.LinksVirtual → (h.noteDeclared l).LinksVirtual
  | [], _, hl => hl
  | o :: l, h, hl => by
      refine LinksVirtual.noteDeclared l
        (h := ((h.markVirtual o.overrider).markVirtual o.base).addOverride o) ?_
      intro p hp
      rw [mem_overrides_addOverride, overrides_markVirtual, overrides_markVirtual] at hp
      simp only [virtuals_addOverride, mem_virtuals_markVirtual]
      rcases hp with hp | ⟨rfl, -⟩
      · exact ⟨Or.inr (Or.inr (hl p hp).1), Or.inr (Or.inr (hl p hp).2)⟩
      · exact ⟨Or.inr (Or.inl rfl), Or.inl rfl⟩

theorem toClassTable_declared (t : ClassTable) (functions : List FunctionRecord) :
    (declared t functions).toClassTable = t := by
  rw [declared_eq, toClassTable_noteDeclared]

theorem mem_overrides_declared {t : ClassTable} {functions : List FunctionRecord} {o : Override} :
    o ∈ (declared t functions).overrides ↔
      o ∈ declaredOverrides functions ∧ o.overrider ≠ o.base := by
  rw [declared_eq, mem_overrides_noteDeclared]
  exact or_iff_right (SortedSet.not_mem_empty o)

theorem linksVirtual_declared (t : ClassTable) (functions : List FunctionRecord) :
    (declared t functions).LinksVirtual := by
  rw [declared_eq]
  exact LinksVirtual.noteDeclared _ fun o ho => absurd ho (SortedSet.not_mem_empty o)

/-! ## Hierarchies that were built -/

/-- A hierarchy is the outcome of the turns of all classes, bases first. -/
structure Built (classes : List ClassRecord) (functions : List FunctionRecord)
    (order : List String) (h : Hierarchy) : Prop where
  ordered : (ClassTable.ofRecords classes).Ordered order
  complete : (ClassTable.ofRecords classes).keys ⊆ order
  eq_foldl : h = order.foldl inferKey (declared (.ofRecords classes) functions)

theorem exists_built {classes : List ClassRecord} {functions : List FunctionRecord}
    {h : Hierarchy} (hb : build classes functions = .ok h) :
    ∃ order, Built classes functions order h := by
  rw [build] at hb
  split at hb
  · exact absurd hb (by simp)
  · next order horder =>
    obtain ⟨hord, hkeys⟩ := ClassTable.ordered_basesFirst horder
    exact ⟨order, hord, hkeys, (Except.ok.inj hb).symm⟩

namespace Built

variable {classes : List ClassRecord} {functions : List FunctionRecord} {order : List String}
  {h : Hierarchy}

theorem toClassTable_eq (hb : Built classes functions order h) :
    h.toClassTable = .ofRecords classes := by
  rw [hb.eq_foldl, toClassTable_foldl_inferKey, toClassTable_declared]

theorem nodup_keys (hb : Built classes functions order h) : h.keys.Nodup := by
  rw [hb.toClassTable_eq]
  exact ClassTable.nodup_keys_ofRecords classes

theorem derivesFrom_irrefl (hb : Built classes functions order h) {key : String} :
    ¬ h.DerivesFrom key key := by
  rw [hb.toClassTable_eq]
  exact hb.ordered.derivesFrom_irrefl hb.complete

theorem linksVirtual (hb : Built classes functions order h) : h.LinksVirtual := by
  rw [hb.eq_foldl]
  exact LinksVirtual.foldl_inferKey order (linksVirtual_declared _ _)

end Built

/-- A link that a class of the table gives rise to, whatever is virtual. -/
def MayInfer (t : ClassTable) (o : Override) : Prop :=
  ∃ c ∈ t.records, ∃ name, (name, o.overrider) ∈ c.declarations ∧
    ∃ base ∈ c.baseNames, t.Finds name base o.base

theorem overrides_cases_foldl {o : Override} :
    ∀ (order : List String) {h : Hierarchy}, o ∈ (order.foldl inferKey h).overrides →
      o ∈ h.overrides ∨ MayInfer h.toClassTable o
  | [], _, ho => Or.inl ho
  | key :: order, h, ho => by
      rcases overrides_cases_foldl order ho with ho | ho
      · rw [inferKey] at ho
        split at ho
        · next c hc =>
          rcases mem_overrides_inferClass.mp ho with ho | ⟨ho, -⟩
          · exact Or.inl ho
          · obtain ⟨name, hdecl, base, hbase, hfinds, -⟩ := mem_overridesBy.mp ho
            exact Or.inr ⟨c, (ClassTable.class?_eq_some hc).1, name, hdecl, base, hbase, hfinds⟩
        · exact Or.inl ho
      · rw [toClassTable_inferKey] at ho
        exact Or.inr ho

/-- Every link is declared by a function record, or goes from a declaration of a class to one
that the lookup of the same name finds from a base of the class. -/
theorem Built.overrides_cases {classes : List ClassRecord} {functions : List FunctionRecord}
    {order : List String} {h : Hierarchy} (hb : Built classes functions order h) {o : Override}
    (ho : o ∈ h.overrides) : o ∈ declaredOverrides functions ∨ MayInfer h.toClassTable o := by
  have ho' : o ∈ (order.foldl inferKey (declared (.ofRecords classes) functions)).overrides := by
    rw [← hb.eq_foldl]
    exact ho
  rcases overrides_cases_foldl order ho' with ho' | ho'
  · exact Or.inl (mem_overrides_declared.mp ho').1
  · rw [toClassTable_declared] at ho'
    rw [hb.toClassTable_eq]
    exact Or.inr ho'

/-- The classes that had their turn have all the links they should have: from each of their
declarations to each virtual one that the lookup finds from a base. -/
def LinksComplete (h : Hierarchy) (done : List String) : Prop :=
  ∀ c ∈ h.records, c.key ∈ done → ∀ name f, (name, f) ∈ c.declarations →
    ∀ base ∈ c.baseNames, ∀ g, h.Finds name base g → g ∈ h.virtuals → f ≠ g →
      ⟨f, g⟩ ∈ h.overrides

/-- What the lookup finds from a class that had its turn belongs to one that had its turn. -/
theorem exists_owner_of_finds {t : ClassTable} {done : List String} {name base : String}
    {g : FunctionKey} (hdone : t.Ordered done) (hbase : base ∈ done) (hg : t.Finds name base g) :
    ∃ d ∈ t.records, d.key ∈ done ∧ g ∈ d.members := by
  obtain ⟨d, hd, hdecl, hpath⟩ := hg.exists_class
  refine ⟨d, (ClassTable.class?_eq_some hd).1, ?_, ClassRecord.mem_members_of_mem_declarations
    (ClassRecord.mem_declarations_of_declares? hdecl)⟩
  rcases reflTransGen_iff_eq_or_transGen.mp hpath with he | hpath
  · exact he ▸ hbase
  · exact (hdone.above hbase hpath).1

theorem overrides_subset_inferKey {h : Hierarchy} {key : String} {o : Override}
    (ho : o ∈ h.overrides) : o ∈ (h.inferKey key).overrides :=
  inferKey_induction (P := fun x => o ∈ x.overrides) key ho
    fun _ _ => mem_overrides_inferClass.mpr (Or.inl ho)

/-- The turn of a class keeps the links complete.  A function that a declaration could override
belongs to a class that had its turn, so no later turn changes whether it is virtual. -/
theorem LinksComplete.inferKey {h : Hierarchy} (hk : h.keys.Nodup) (hown : h.OwnedOnce)
    {done : List String} {key : String} (hlinks : h.LinksComplete done)
    (hdone : h.Ordered done) (hnew : key ∉ done)
    (hbases : ∀ base, h.HasBase key base → base ∈ done) :
    (h.inferKey key).LinksComplete (done ++ [key]) := by
  intro c hc hcdone name f hdecl base hbase g hfinds hvirt hne
  rw [toClassTable_inferKey] at hc hfinds
  have hstep : h.HasBase c.key base :=
    ⟨ClassTable.mem_basesOf.mpr ⟨c, ClassTable.class?_of_mem hk hc, hbase⟩, hfinds.known⟩
  have hbdone : base ∈ done := by
    rcases List.mem_append.mp hcdone with hcd | hcd
    · exact (hdone.above hcd (.single hstep)).1
    · exact hbases base (List.mem_singleton.mp hcd ▸ hstep)
  obtain ⟨d, hd, hddone, hgd⟩ := exists_owner_of_finds hdone hbdone hfinds
  have hbefore : g ∈ h.virtuals := by
    rw [Hierarchy.inferKey] at hvirt
    split at hvirt
    · next e he =>
      rcases mem_virtuals_inferClass hvirt with hv | hv
      · exact hv
      · -- the class of this turn would list `g`, but its only owner had its turn before
        obtain ⟨hmem, hekey⟩ := ClassTable.class?_eq_some he
        exact absurd (hekey ▸ hown e hmem d hd g hv hgd ▸ hddone) hnew
    · exact hvirt
  rcases List.mem_append.mp hcdone with hcd | hcd
  · exact overrides_subset_inferKey
      (hlinks c hc hcd name f hdecl base hbase g hfinds hbefore hne)
  · have hclass : h.class? key = some c :=
      List.mem_singleton.mp hcd ▸ ClassTable.class?_of_mem hk hc
    simp only [Hierarchy.inferKey, hclass]
    refine mem_overrides_inferClass.mpr (Or.inr ⟨?_, hne⟩)
    exact mem_overridesBy.mpr ⟨name, hdecl, base, hbase, hfinds, hbefore⟩

theorem linksComplete_foldl {h : Hierarchy} (hk : h.keys.Nodup) (hown : h.OwnedOnce)
    {done : List String} (hdone : h.Ordered done) :
    (done.foldl inferKey h).LinksComplete done := by
  induction hdone with
  | nil => exact fun _ _ hc => absurd hc List.not_mem_nil
  | @snoc done key hdone hnew hbases ih =>
      rw [List.foldl_append]
      refine LinksComplete.inferKey ?_ ?_ ih ?_ hnew ?_
      · rw [toClassTable_foldl_inferKey]
        exact hk
      · rw [toClassTable_foldl_inferKey]
        exact hown
      · rw [toClassTable_foldl_inferKey]
        exact hdone
      · rw [toClassTable_foldl_inferKey]
        exact hbases

namespace Built

variable {classes : List ClassRecord} {functions : List FunctionRecord} {order : List String}
  {h : Hierarchy}

/-- Where no function belongs to two classes, a declaration of a class overrides every virtual
function that the lookup of its name finds from a base of the class. -/
theorem overrides_of_finds (hb : Built classes functions order h) (hown : h.OwnedOnce)
    {key name base : String} {c : ClassRecord} {f g : FunctionKey} (hc : h.class? key = some c)
    (hdecl : (name, f) ∈ c.declarations) (hbase : h.HasBase key base)
    (hg : h.Finds name base g) (hvirt : g ∈ h.virtuals) (hne : f ≠ g) :
    ⟨f, g⟩ ∈ h.overrides := by
  obtain ⟨hmem, hkey⟩ := ClassTable.class?_eq_some hc
  obtain ⟨c', hc', hbase'⟩ := ClassTable.mem_basesOf.mp hbase.1
  obtain rfl : c' = c := Option.some.inj (hc'.symm.trans hc)
  have hstart : (declared (.ofRecords classes) functions).toClassTable = h.toClassTable := by
    rw [toClassTable_declared, hb.toClassTable_eq]
  have hordered : (declared (.ofRecords classes) functions).Ordered order := by
    rw [toClassTable_declared]
    exact hb.ordered
  have hlinks : h.LinksComplete order := by
    rw [hb.eq_foldl]
    exact linksComplete_foldl (hstart ▸ hb.nodup_keys) (hstart ▸ hown) hordered
  have hdone : c'.key ∈ order := by
    refine hb.complete ?_
    rw [← hb.toClassTable_eq]
    exact List.mem_map_of_mem hmem
  exact hlinks c' hmem hdone name f hdecl base hbase' g hg hvirt hne

end Built

/-! ## Overriders -/

/-- A function overrides another, directly. -/
def Overrides (h : Hierarchy) (f g : FunctionKey) : Prop := ⟨f, g⟩ ∈ h.overrides

theorem mem_directOverriders {h : Hierarchy} {f g : FunctionKey} :
    f ∈ h.directOverriders g ↔ h.Overrides f g := by
  simp only [directOverriders, List.mem_map, List.mem_filter, decide_eq_true_eq]
  constructor
  · rintro ⟨o, ⟨ho, rfl⟩, rfl⟩
    exact ho
  · intro ho
    exact ⟨⟨f, g⟩, ⟨ho, rfl⟩, rfl⟩

/-- The overriders of a function are those that override it, directly or through others. -/
theorem mem_overriders_iff {h : Hierarchy} {f g : FunctionKey} :
    f ∈ h.overriders g ↔ TransGen h.Overrides f g := by
  rw [overriders, mem_stackSearch_iff, ← transGen_swap]
  have hrel : (fun x y => y ∈ h.directOverriders x) = Function.swap h.Overrides := by
    funext x y
    exact propext mem_directOverriders
  rw [hrel]

theorem isVirtual_iff {h : Hierarchy} {f : FunctionKey} :
    h.isVirtual f = true ↔ f ∈ h.virtuals := by
  simp [isVirtual]

end Hierarchy

end CallGraphs
