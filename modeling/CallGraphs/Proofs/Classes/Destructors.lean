import CallGraphs.Proofs.Classes.Dispatch
import CallGraphs.Proofs.Classes.Lifetimes
import CallGraphs.Proofs.Classes.Virtuality

/-!
# Virtual destructors

A class has a virtual destructor exactly if it, or a class above it, declares one
that is said to be virtual (`Hierarchy.hasVirtualDestructor_iff_above`): in the
class record, in a function record, or as an end of a declared override.  Classes
without a destructor of their own and bases that are not known do not get in the
way.

A call of the destructor may run what the destruction of some object runs, of the
static class or of one below it (`Hierarchy.Built.exists_destroys_of_mem_targets`).
What the lookup finds above a class is what its implicit destructor runs; and an
overrider of a destructor is a destructor, if links are inferred only and no
destructor is a method as well.
-/

namespace CallGraphs

open Relation

/-! ## What is said of destructors -/

/-- The record of its class or of the function calls a destructor virtual, or a declared override
names it. -/
def DestructorDecl.SaidVirtual (functions : List FunctionRecord) (d : DestructorDecl) : Prop :=
  d.isVirtual = true ∨ (∃ r ∈ functions, r.key = d.function ∧ r.isVirtual = true) ∨
    ∃ o ∈ Hierarchy.declaredOverrides functions, d.function = o.overrider ∨ d.function = o.base

namespace ClassTable

/-- The rules for virtual destructors as a chain of bases: it leads up to a class that declares a
destructor that is virtual. -/
theorem destructorVirtual_iff {t : ClassTable} {D : FunctionKey → Prop} {key : String} :
    t.DestructorVirtual D key ↔ ∃ above c d, ReflTransGen t.HasBase key above ∧
      t.class? above = some c ∧ c.destructor = some d ∧ D d.function := by
  constructor
  · intro hvirtual
    induction hvirtual with
    | own hc hd hsaid => exact ⟨_, _, _, .refl, hc, hd, hsaid⟩
    | inherited hbase _ ih =>
        obtain ⟨above, c, d, hpath, hc, hd, hsaid⟩ := ih
        exact ⟨above, c, d, .head hbase hpath, hc, hd, hsaid⟩
  · rintro ⟨above, c, d, hpath, hc, hd, hsaid⟩
    induction hpath using ReflTransGen.head_induction_on with
    | refl => exact .own hc hd hsaid
    | head hbase _ ih => exact .inherited hbase ih

/-! ## Destructors above -/

theorem declaredIn?_destructorName {t : ClassTable} {key : String} {f : FunctionKey} :
    t.declaredIn? key destructorName = some f ↔ t.DeclaresDestructor key f := by
  rw [declaredIn?_eq_some]
  simp only [ClassRecord.declares?, if_true, DeclaresDestructor]

/-- What the lookup of the destructor finds is run by destroying an object of the class. -/
theorem Finds.mem_destroyTargets {t : ClassTable} {key : String} {f : FunctionKey}
    (h : t.Finds destructorName key f) : f ∈ t.destroyTargets key := by
  rw [mem_destroyTargets_iff]
  induction h with
  | here hdecl => exact ⟨_, .refl, declaredIn?_destructorName.mp hdecl⟩
  | above hnone hbase _ ih =>
      obtain ⟨last, hchain, hlast⟩ := ih
      obtain ⟨c, hc, hbase⟩ := mem_basesOf.mp hbase
      have hdestructor : c.destructor = none := by
        simpa [declaredIn?, hc, ClassRecord.declares?] using hnone
      exact ⟨last, .head ⟨c, hc, hdestructor, Or.inr hbase⟩ hchain, hlast⟩

end ClassTable

namespace Hierarchy

/-- No function is listed both as a destructor and as a method. -/
def NoDestructorIsMethod (classes : List ClassRecord) : Prop :=
  ∀ c ∈ classes, ∀ d ∈ classes, ∀ x ∈ c.destructor, ∀ m ∈ d.methods, m.function ≠ x.function

instance (classes : List ClassRecord) : Decidable (NoDestructorIsMethod classes) :=
  inferInstanceAs (Decidable (∀ c ∈ classes, ∀ d ∈ classes, ∀ x ∈ c.destructor,
    ∀ m ∈ d.methods, m.function ≠ x.function))

namespace Built

variable {classes : List ClassRecord} {functions : List FunctionRecord} {order : List String}
  {h : Hierarchy}

/-- What is declared virtual of a destructor is said of it. -/
theorem declaredVirtual_destructor_iff (hb : Built classes functions order h) (hown : h.OwnedOnce)
    {key : String} {c : ClassRecord} {d : DestructorDecl} (hc : h.class? key = some c)
    (hd : c.destructor = some d) :
    DeclaredVirtual h.toClassTable functions d.function ↔ d.SaidVirtual functions := by
  have hdc : d.function ∈ c.members := ClassRecord.mem_members.mpr (Or.inr (Or.inr ⟨d, hd, rfl⟩))
  obtain ⟨hmem, rfl⟩ := ClassTable.class?_eq_some hc
  rw [DeclaredVirtual, mem_declaredVirtuals, DestructorDecl.SaidVirtual]
  constructor
  · rintro ((⟨r, hr, hv, hkey⟩ | ⟨e, he, x, hx, hv, hfunction⟩) | hnamed)
    · exact Or.inr (Or.inl ⟨r, hr, hkey, hv⟩)
    · -- the class that calls it virtual lists it, so it is this class
      have hxe : d.function ∈ e.members :=
        ClassRecord.mem_members.mpr (Or.inr (Or.inr ⟨x, hx, hfunction⟩))
      have hec : e = c := List.inj_on_of_nodup_map hb.nodup_keys he hmem
        (hown e he c hmem _ hxe hdc)
      obtain rfl := Option.some.inj ((hec ▸ hx).symm.trans hd)
      exact Or.inl hv
    · exact Or.inr (Or.inr hnamed)
  · rintro (hv | ⟨r, hr, hkey, hv⟩ | hnamed)
    · exact Or.inl (Or.inr ⟨c, hmem, d, hd, hv, rfl⟩)
    · exact Or.inl (Or.inl ⟨r, hr, hv, hkey⟩)
    · exact Or.inr hnamed

/-! ## Overriders of destructors -/

/-- A function that is declared under the name of destructors is declared under no other one. -/
theorem declaredBy_destructorName (hb : Built classes functions order h)
    (hmethods : NoMethodNamedDestructor classes) (hroles : NoDestructorIsMethod classes)
    {name key key' : String} {f : FunctionKey} (hf : DeclaredBy h destructorName f key)
    (hf' : DeclaredBy h name f key') : name = destructorName := by
  obtain ⟨c, hc, hcf⟩ := hf
  obtain ⟨c', hc', hcf'⟩ := hf'
  obtain ⟨hmem, -⟩ := ClassTable.class?_eq_some hc
  obtain ⟨hmem', -⟩ := ClassTable.class?_eq_some hc'
  rw [hb.toClassTable_eq] at hmem hmem'
  obtain ⟨r, hr, -, hrf⟩ := ClassTable.exists_record_of_mem_declarations hmem hcf
  obtain ⟨r', hr', -, hrf'⟩ := ClassTable.exists_record_of_mem_declarations hmem' hcf'
  rcases ClassRecord.mem_declarations.mp hrf with ⟨m, hm, hname, -⟩ | ⟨-, x, hx, hxf⟩
  · exact absurd hname (hmethods r hr m hm)
  · rcases ClassRecord.mem_declarations.mp hrf' with ⟨m, hm, -, hmf⟩ | ⟨hname, -⟩
    · exact absurd (hmf.trans hxf.symm) (hroles r hr r' hr' x hx m hm)
    · exact hname

theorem DeclaredBy.declaresDestructor (hb : Built classes functions order h)
    (hmethods : NoMethodNamedDestructor classes) {key : String} {f : FunctionKey}
    (hf : DeclaredBy h destructorName f key) : h.DeclaresDestructor key f := by
  obtain ⟨c, hc, hcf⟩ := hf
  rcases ClassRecord.mem_declarations.mp hcf with ⟨m, hm, hname, -⟩ | ⟨-, d, hd, hdf⟩
  · exact absurd hname (hb.methodNames hmethods (ClassTable.class?_eq_some hc).1 m hm)
  · exact ⟨c, hc, by rw [hd, Option.map_some, hdf]⟩

/-- Whatever a call of the destructor may run is run by destroying an object of the static class or
of one below it. -/
theorem exists_destroys_of_mem_targets (hb : Built classes functions order h) (hown : h.OwnedOnce)
    (hnone : ∀ r ∈ functions, r.overrides = []) (hmethods : NoMethodNamedDestructor classes)
    (hroles : NoDestructorIsMethod classes) {receiver : String} {d : Dispatch}
    (hd : h.dispatch receiver destructorName = .ok d) {f : FunctionKey} (hf : f ∈ d.targets) :
    ∃ below ∈ h.derivedClosure receiver, f ∈ h.destroyTargets below := by
  obtain ⟨hknown, htargets, -⟩ := dispatched hd
  obtain ⟨g, hg, rfl | ⟨-, hover, howned⟩⟩ := (htargets f).mp hf
  · exact ⟨receiver, (ClassTable.mem_derivedClosure_iff hb.nodup_keys hknown).mpr .refl,
      hg.mem_destroyTargets⟩
  · obtain ⟨c, hc, hcg, -⟩ := hg.exists_class
    obtain ⟨below, hbelow, -⟩ := hb.declaredBy_overrider_of_name hown hnone
      (hb.declaredBy_destructorName hmethods hroles) hover
      ⟨c, hc, ClassRecord.mem_declarations_of_declares? hcg⟩
    -- the owner of the overrider is the class that declares it as its destructor
    obtain ⟨e, he, hef⟩ := hbelow
    obtain ⟨key, hkey, howner⟩ := ownedWithin_iff.mp howned
    obtain ⟨hmem, rfl⟩ := ClassTable.class?_eq_some he
    rw [hown.owner? hmem (ClassRecord.mem_members_of_mem_declarations hef)] at howner
    obtain rfl := Option.some.inj howner
    exact ⟨e.key, hkey, ClassTable.mem_destroyTargets_iff.mpr
      ⟨e.key, .refl, DeclaredBy.declaresDestructor hb hmethods ⟨e, he, hef⟩⟩⟩

end Built

/-! ## Main statement -/

/-- A class has a virtual destructor exactly if the class itself, or one that a chain of known bases
leads up to, declares a destructor that is said to be virtual; its own destructor, if it declares
one, is virtual then.  Several records of a class count as the one that they are joined to. -/
theorem hasVirtualDestructor_iff_above {classes : List ClassRecord}
    {functions : List FunctionRecord} {h : Hierarchy} (hbuild : build classes functions = .ok h)
    (hlisted : ListedByOneClass classes) (key : String) :
    (h.hasVirtualDestructor key = true ↔ ∃ above c d, ReflTransGen h.HasBase key above ∧
        h.class? above = some c ∧ c.destructor = some d ∧ d.SaidVirtual functions) ∧
      (h.hasVirtualDestructor key = true → ∀ c d, h.class? key = some c → c.destructor = some d →
        h.isVirtual d.function = true) := by
  obtain ⟨order, hb⟩ := exists_built hbuild
  have hown := hb.ownedOnce hlisted
  have hmem : h.hasVirtualDestructor key = true ↔ key ∈ h.virtualDestructors := decide_eq_true_iff
  constructor
  · rw [hmem, hb.mem_virtualDestructors_iff hown, ClassTable.destructorVirtual_iff]
    constructor
    · rintro ⟨above, c, d, hpath, hc, hd, hsaid⟩
      exact ⟨above, c, d, hpath, hc, hd, (hb.declaredVirtual_destructor_iff hown hc hd).mp hsaid⟩
    · rintro ⟨above, c, d, hpath, hc, hd, hsaid⟩
      exact ⟨above, c, d, hpath, hc, hd, (hb.declaredVirtual_destructor_iff hown hc hd).mpr hsaid⟩
  · intro hvirtual c d hc hd
    obtain ⟨hrecord, rfl⟩ := ClassTable.class?_eq_some hc
    exact isVirtual_iff.mpr (hb.settled.marked c hrecord (hmem.mp hvirtual) d hd)

/-- A stream whose destructor only its function record calls virtual, a class below that declares
none and has a base that is not known, and one below that with a destructor. -/
def streams : List ClassRecord :=
  [{ key := "File", bases := [{ className := "Buffered" }],
     destructor := some ⟨"File::~File", false⟩ },
   { key := "Buffered", bases := [{ className := "Unknown" }, { className := "Stream" }] },
   { key := "Stream", destructor := some ⟨"Stream::~Stream", false⟩ }]

/-- What is said of the destructor of the stream. -/
def virtualStream : List FunctionRecord := [{ key := "Stream::~Stream", isVirtual := true }]

/-- The destructor is inherited through the class that declares none. -/
theorem streams_hasVirtualDestructor : ListedByOneClass streams ∧ ∃ h,
    build streams virtualStream = .ok h ∧ h.hasVirtualDestructor "File" = true ∧
      h.isVirtual "File::~File" = true := by
  have hlisted : ListedByOneClass streams := by decide
  obtain ⟨h, hbuild⟩ : ∃ h, build streams virtualStream = .ok h := ⟨_, by cbv⟩
  obtain ⟨order, hb⟩ := exists_built hbuild
  have hrecords : h.class? "File" = streams[0]? ∧ h.class? "Stream" = streams[2]? := by
    rw [hb.toClassTable_eq]
    exact ⟨by cbv, by cbv⟩
  have hchain : h.HasBase "File" "Buffered" ∧ h.HasBase "Buffered" "Stream" := by
    rw [hb.toClassTable_eq]
    refine ⟨⟨?_, ?_⟩, ⟨?_, ?_⟩⟩
    all_goals exact List.contains_iff_mem.mp (by cbv)
  obtain ⟨inherited, own⟩ := hasVirtualDestructor_iff_above hbuild hlisted "File"
  have hvirtual : h.hasVirtualDestructor "File" = true :=
    inherited.mpr ⟨"Stream", _, _, .head hchain.1 (.single hchain.2), hrecords.2, rfl,
      Or.inr (Or.inl ⟨_, List.mem_singleton.mpr rfl, rfl, rfl⟩)⟩
  exact ⟨hlisted, h, hbuild, hvirtual, own hvirtual _ _ hrecords.1 rfl⟩

end Hierarchy

end CallGraphs
