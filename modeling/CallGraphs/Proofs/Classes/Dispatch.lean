import CallGraphs.Proofs.Classes.Overriding
import Mathlib.Data.List.Permutation

/-!
# Dispatch

Soundness and precision of virtual dispatch, and how calls through member
pointers compare with it.

Dispatch is sound: as soon as some nearest declaration of a method is virtual,
whatever a class below the static one declares under that name is a candidate.
The reason is an invariant of the way down from the static class: at every
class on it, the lookup finds a function that is the virtual declaration or
overrides it (`Hierarchy.Built.finds_overrider`).  Dispatch is precise where
no overrides are declared and no function goes by two names: a candidate that
is no nearest declaration is declared by a class below the static one.

A call through a member pointer keeps only those overriders that the static
class of the object or a class below it owns.  It therefore misses an override
that the static class inherits, and only such.
-/

namespace CallGraphs

open Relation

namespace Hierarchy

/-! ## Conditions on records -/

/-- Every member function is listed by one class only. -/
def ListedByOneClass (classes : List ClassRecord) : Prop :=
  ∀ c ∈ classes, ∀ d ∈ classes, ∀ f ∈ c.members, f ∈ d.members → c.key = d.key

/-- No function is listed under two names; a destructor goes by the name of destructors. -/
def ListedUnderOneName (classes : List ClassRecord) : Prop :=
  ∀ c ∈ classes, ∀ d ∈ classes, ∀ p ∈ c.declarations, ∀ q ∈ d.declarations, p.2 = q.2 → p.1 = q.1

/-- No method goes by the name of destructors. -/
def NoMethodNamedDestructor (classes : List ClassRecord) : Prop :=
  ∀ c ∈ classes, ∀ m ∈ c.methods, m.name ≠ destructorName

instance (classes : List ClassRecord) : Decidable (ListedByOneClass classes) :=
  inferInstanceAs (Decidable (∀ c ∈ classes, ∀ d ∈ classes, ∀ f ∈ c.members, f ∈ d.members →
    c.key = d.key))

instance (classes : List ClassRecord) : Decidable (ListedUnderOneName classes) :=
  inferInstanceAs (Decidable (∀ c ∈ classes, ∀ d ∈ classes, ∀ p ∈ c.declarations,
    ∀ q ∈ d.declarations, p.2 = q.2 → p.1 = q.1))

instance (classes : List ClassRecord) : Decidable (NoMethodNamedDestructor classes) :=
  inferInstanceAs (Decidable (∀ c ∈ classes, ∀ m ∈ c.methods, m.name ≠ destructorName))

namespace Built

variable {classes : List ClassRecord} {functions : List FunctionRecord} {order : List String}
  {h : Hierarchy}

theorem ownedOnce (hb : Built classes functions order h) (hl : ListedByOneClass classes) :
    h.OwnedOnce := by
  intro c hc d hd f hfc hfd
  rw [hb.toClassTable_eq] at hc hd
  obtain ⟨r, hr, hrc, hrf⟩ := ClassTable.exists_record_of_mem_members hc hfc
  obtain ⟨s, hs, hsd, hsf⟩ := ClassTable.exists_record_of_mem_members hd hfd
  exact hrc.symm.trans ((hl r hr s hs f hrf hsf).trans hsd)

theorem namedOnce (hb : Built classes functions order h) (hl : ListedUnderOneName classes)
    {c d : ClassRecord} (hc : c ∈ h.records) (hd : d ∈ h.records) {n n' : String} {f : FunctionKey}
    (hfc : (n, f) ∈ c.declarations) (hfd : (n', f) ∈ d.declarations) : n = n' := by
  rw [hb.toClassTable_eq] at hc hd
  obtain ⟨r, hr, -, hrf⟩ := ClassTable.exists_record_of_mem_declarations hc hfc
  obtain ⟨s, hs, -, hsf⟩ := ClassTable.exists_record_of_mem_declarations hd hfd
  exact hl r hr s hs (n, f) hrf (n', f) hsf rfl

theorem methodNames (hb : Built classes functions order h) (hn : NoMethodNamedDestructor classes)
    {c : ClassRecord} (hc : c ∈ h.records) : ∀ m ∈ c.methods, m.name ≠ destructorName := by
  rw [hb.toClassTable_eq] at hc
  exact ClassTable.forall_methods_ofRecords hn c hc

end Built

/-! ## Candidates -/

theorem mem_candidatesFor {h : Hierarchy} {classes : List String} {f g : FunctionKey} :
    f ∈ h.candidatesFor classes g ↔ f = g ∨
      g ∈ h.virtuals ∧ TransGen h.Overrides f g ∧ h.ownedWithin classes f = true := by
  rw [candidatesFor, List.mem_cons]
  refine or_congr Iff.rfl ?_
  split
  · next hv =>
    rw [List.mem_filter, ← SortedSet.mem_def, mem_overriders_iff]
    exact (and_iff_right (isVirtual_iff.mp hv)).symm
  · next hv =>
    simp only [List.not_mem_nil, false_iff, not_and]
    exact fun hmem => absurd (isVirtual_iff.mpr hmem) hv

theorem ownedWithin_iff {h : Hierarchy} {classes : List String} {f : FunctionKey} :
    h.ownedWithin classes f = true ↔ ∃ key ∈ classes, h.owner? f = some key := by
  simp only [ownedWithin, Option.any_eq_true, decide_eq_true_eq]
  constructor
  · rintro ⟨key, hkey, hmem⟩
    exact ⟨key, hmem, hkey⟩
  · rintro ⟨key, hmem, hkey⟩
    exact ⟨key, hkey, hmem⟩

theorem mem_memberPointerTargets_some {h : Hierarchy} {receiver : String} {f g : FunctionKey} :
    g ∈ h.memberPointerTargets f (some receiver) ↔ g = f ∨
      f ∈ h.virtuals ∧ TransGen h.Overrides g f ∧
        h.ownedWithin (h.derivedClosure receiver) g = true :=
  mem_candidatesFor

/-- What it means that a call was dispatched. -/
structure Dispatched (h : Hierarchy) (receiver method : String) (d : Dispatch) : Prop where
  known : receiver ∈ h.keys
  mem_targets : ∀ f, f ∈ d.targets ↔ ∃ g, h.Finds method receiver g ∧
    (f = g ∨ g ∈ h.virtuals ∧ TransGen h.Overrides f g ∧
      h.ownedWithin (h.derivedClosure receiver) f = true)
  definite_iff : d.confidence = .definite ↔ d.targets.size = 1

theorem dispatched {h : Hierarchy} {receiver method : String} {d : Dispatch}
    (hd : h.dispatch receiver method = .ok d) : h.Dispatched receiver method d := by
  rw [dispatch] at hd
  split at hd
  · exact absurd hd (by simp)
  · next hknown =>
    split at hd
    · exact absurd hd (by simp)
    · obtain rfl := Except.ok.inj hd
      refine ⟨by simpa [ClassTable.contains] using hknown, fun f => ?_, ?_⟩
      · simp only [SortedSet.mem_ofList, List.mem_flatMap, mem_candidatesFor,
          ClassTable.mem_nearest_iff]
      · simp only
        split
        · next hs => exact iff_of_true rfl hs
        · next hs => exact iff_of_false (by simp) hs

/-- A set with two members does not have the size of one. -/
theorem size_ne_one {s : SortedSet FunctionKey} {f g : FunctionKey} (hf : f ∈ s) (hg : g ∈ s)
    (hne : f ≠ g) : s.size ≠ 1 := by
  intro hsize
  obtain ⟨x, hx⟩ := List.length_eq_one_iff.mp hsize
  rw [SortedSet.mem_def, hx, List.mem_singleton] at hf hg
  exact hne (hf.trans hg.symm)

/-! ## Soundness -/

namespace Built

variable {classes : List ClassRecord} {functions : List FunctionRecord} {order : List String}
  {h : Hierarchy}

/-- Two functions found from a class and declared below it are different. -/
theorem ne_of_declared_below (hb : Built classes functions order h) (hown : h.OwnedOnce)
    {receiver key name name' : String} {c : ClassRecord} {f g : FunctionKey}
    (hg : h.Finds name receiver g) (hbelow : h.DerivesFrom key receiver)
    (hc : h.class? key = some c) (hf : (name', f) ∈ c.declarations) : f ≠ g := by
  rintro rfl
  obtain ⟨d, hd, hdecl, hpath⟩ := hg.exists_class
  obtain ⟨hmem, rfl⟩ := ClassTable.class?_eq_some hc
  have hkey : c.key = d.key := hown c hmem d (ClassTable.class?_eq_some hd).1 f
    (ClassRecord.mem_members_of_mem_declarations hf)
    (ClassRecord.mem_members_of_mem_declarations (ClassRecord.mem_declarations_of_declares? hdecl))
  have hself : h.DerivesFrom c.key c.key := by
    have := hbelow.trans_left hpath
    rwa [← hkey] at this
  exact hb.derivesFrom_irrefl hself

/-- A declaration of a class overrides a virtual function that is found from a base of it. -/
theorem overrides_of_declared (hb : Built classes functions order h) (hown : h.OwnedOnce)
    {key base name : String} {c : ClassRecord} {f g : FunctionKey} (hc : h.class? key = some c)
    (hf : (name, f) ∈ c.declarations) (hbase : h.HasBase key base) (hg : h.Finds name base g)
    (hv : g ∈ h.virtuals) : h.Overrides f g :=
  hb.overrides_of_finds hown hc hf hbase hg hv
    (hb.ne_of_declared_below hown hg (.single hbase) hc hf)

/-- On the way down from a class that finds a virtual function, every class finds that function
or a virtual one that overrides it. -/
theorem finds_overrider (hb : Built classes functions order h) (hown : h.OwnedOnce)
    {receiver key name : String} {g : FunctionKey} (hg : h.Finds name receiver g)
    (hv : g ∈ h.virtuals) (hbelow : ReflTransGen h.HasBase key receiver) :
    ∃ f, h.Finds name key f ∧ f ∈ h.virtuals ∧ ReflTransGen h.Overrides f g := by
  induction hbelow using ReflTransGen.head_induction_on with
  | refl => exact ⟨g, hg, hv, .refl⟩
  | @head key base hbase _ ih =>
      obtain ⟨f, hf, hfv, hpath⟩ := ih
      cases hdecl : h.declaredIn? key name with
      | none => exact ⟨f, .above hdecl hbase.1 hf, hfv, hpath⟩
      | some e =>
          obtain ⟨c, hc, hce⟩ := ClassTable.declaredIn?_eq_some.mp hdecl
          have hover : h.Overrides e f := hb.overrides_of_declared hown hc
            (ClassRecord.mem_declarations_of_declares? hce) hbase hf hfv
          exact ⟨e, .here hdecl, (hb.linksVirtual _ hover).1, .head hover hpath⟩

/-- Whatever a class below declares under the name of a virtual function overrides it. -/
theorem transGen_overrides (hb : Built classes functions order h) (hown : h.OwnedOnce)
    {receiver key name : String} {c : ClassRecord} {f g : FunctionKey}
    (hg : h.Finds name receiver g) (hv : g ∈ h.virtuals) (hbelow : h.DerivesFrom key receiver)
    (hc : h.class? key = some c) (hf : (name, f) ∈ c.declarations) :
    TransGen h.Overrides f g := by
  obtain ⟨base, hbase, hpath⟩ := TransGen.head'_iff.mp hbelow
  obtain ⟨e, he, hev, heg⟩ := hb.finds_overrider hown hg hv hpath
  exact .head' (hb.overrides_of_declared hown hc hf hbase he hev) heg

/-- A member of a class at or below another is owned within the derived closure of that. -/
theorem ownedWithin_of_mem (hb : Built classes functions order h) (hown : h.OwnedOnce)
    {receiver key : String} {c : ClassRecord} {f : FunctionKey} (hr : receiver ∈ h.keys)
    (hbelow : ReflTransGen h.HasBase key receiver) (hc : h.class? key = some c)
    (hf : f ∈ c.members) : h.ownedWithin (h.derivedClosure receiver) f = true := by
  obtain ⟨hmem, rfl⟩ := ClassTable.class?_eq_some hc
  exact ownedWithin_iff.mpr ⟨c.key, (ClassTable.mem_derivedClosure_iff hb.nodup_keys hr).mpr hbelow,
    hown.owner? hmem hf⟩

/-- What a class finds is owned at or below it exactly if the class declares it itself. -/
theorem ownedWithin_iff_declares (hb : Built classes functions order h) (hown : h.OwnedOnce)
    {receiver name : String} {g : FunctionKey} (hr : receiver ∈ h.keys)
    (hg : h.Finds name receiver g) :
    h.ownedWithin (h.derivedClosure receiver) g = true ↔
      (h.declaredIn? receiver name).isSome = true := by
  obtain ⟨e, he, hdecl, hpath⟩ := hg.exists_class
  have hge : g ∈ e.members := ClassRecord.mem_members_of_mem_declarations
    (ClassRecord.mem_declarations_of_declares? hdecl)
  obtain ⟨hmem, hkey⟩ := ClassTable.class?_eq_some he
  constructor
  · intro howned
    -- the owner is at or below the static class and at or above it, and there are no cycles
    obtain ⟨k, hk, hko⟩ := ownedWithin_iff.mp howned
    rw [hown.owner? hmem hge] at hko
    obtain rfl := Option.some.inj hko
    have hbelow := (ClassTable.mem_derivedClosure_iff hb.nodup_keys hr).mp hk
    rcases reflTransGen_iff_eq_or_transGen.mp hbelow with hsame | hlower
    · subst hsame
      exact Option.isSome_of_eq_some (ClassTable.declaredIn?_eq_some.mpr ⟨e, he, hdecl⟩)
    · exact absurd (hlower.trans_left hpath) hb.derivesFrom_irrefl
  · intro hdeclares
    obtain ⟨g', hg'⟩ := Option.isSome_iff_exists.mp hdeclares
    obtain rfl := (ClassTable.finds_iff_of_declares hg').mp hg
    obtain ⟨c, hc, hcg⟩ := ClassTable.declaredIn?_eq_some.mp hg'
    exact hb.ownedWithin_of_mem hown hr .refl hc (ClassRecord.mem_members_of_mem_declarations
      (ClassRecord.mem_declarations_of_declares? hcg))

/-! ## Precision -/

/-- A class declares a function under a name. -/
def DeclaredBy (h : Hierarchy) (name : String) (f : FunctionKey) (key : String) : Prop :=
  ∃ c, h.class? key = some c ∧ (name, f) ∈ c.declarations

theorem DeclaredBy.key_eq (hown : h.OwnedOnce) {n n' key key' : String} {f : FunctionKey}
    (hf : DeclaredBy h n f key) (hf' : DeclaredBy h n' f key') : key = key' := by
  obtain ⟨c, hc, hcf⟩ := hf
  obtain ⟨d, hd, hdf⟩ := hf'
  obtain ⟨hcm, rfl⟩ := ClassTable.class?_eq_some hc
  obtain ⟨hdm, rfl⟩ := ClassTable.class?_eq_some hd
  exact hown c hcm d hdm f (ClassRecord.mem_members_of_mem_declarations hcf)
    (ClassRecord.mem_members_of_mem_declarations hdf)

theorem declaredBy_unique (hb : Built classes functions order h) (hown : h.OwnedOnce)
    (hnames : ListedUnderOneName classes) {n n' key key' : String} {f : FunctionKey}
    (hf : DeclaredBy h n f key) (hf' : DeclaredBy h n' f key') : n = n' ∧ key = key' := by
  have hkey := hf.key_eq hown hf'
  obtain ⟨c, hc, hcf⟩ := hf
  obtain ⟨d, hd, hdf⟩ := hf'
  exact ⟨hb.namedOnce hnames (ClassTable.class?_eq_some hc).1 (ClassTable.class?_eq_some hd).1 hcf
    hdf, hkey⟩

/-- Where links are inferred only and the functions of a name have no other one, an overrider of
such a function is declared under the name too, by a class below that of the overridden function. -/
theorem declaredBy_overrider_of_name (hb : Built classes functions order h) (hown : h.OwnedOnce)
    (hnone : ∀ r ∈ functions, r.overrides = []) {name : String}
    (hname : ∀ {f n key key'}, DeclaredBy h name f key → DeclaredBy h n f key' → n = name)
    {f g : FunctionKey} {key : String} (hfg : TransGen h.Overrides f g)
    (hg : DeclaredBy h name g key) :
    ∃ below, DeclaredBy h name f below ∧ h.DerivesFrom below key := by
  have step : ∀ {f g : FunctionKey} {key : String}, h.Overrides f g → DeclaredBy h name g key →
      ∃ below, DeclaredBy h name f below ∧ h.DerivesFrom below key := by
    intro f g key hover hg
    rcases hb.overrides_cases hover with hdeclared | ⟨c, hc, n, hdecl, base, hbase, hfinds⟩
    · obtain ⟨r, hr, hmem⟩ := List.mem_flatMap.mp hdeclared
      rw [hnone r hr] at hmem
      exact absurd hmem List.not_mem_nil
    · obtain ⟨d, hd, hdg, hpath⟩ := hfinds.exists_class
      have hg' : DeclaredBy h n g d.key := ⟨d, hd, ClassRecord.mem_declarations_of_declares? hdg⟩
      obtain rfl := hname hg hg'
      obtain rfl := hg.key_eq hown hg'
      have hclass := ClassTable.class?_of_mem hb.nodup_keys hc
      exact ⟨c.key, ⟨c, hclass, hdecl⟩,
        .head' ⟨ClassTable.mem_basesOf.mpr ⟨c, hclass, hbase⟩, hfinds.known⟩ hpath⟩
  induction hfg using TransGen.head_induction_on with
  | single hover => exact step hover hg
  | head hover _ ih =>
      obtain ⟨mid, hmid, hmidkey⟩ := ih
      obtain ⟨below, hbelow, hlower⟩ := step hover hmid
      exact ⟨below, hbelow, hlower.trans hmidkey⟩

/-- `declaredBy_overrider_of_name` where no function goes by two names at all. -/
theorem declaredBy_overrider (hb : Built classes functions order h) (hown : h.OwnedOnce)
    (hnames : ListedUnderOneName classes) (hnone : ∀ r ∈ functions, r.overrides = [])
    {f g : FunctionKey} {name key : String} (hfg : TransGen h.Overrides f g)
    (hg : DeclaredBy h name g key) :
    ∃ below, DeclaredBy h name f below ∧ h.DerivesFrom below key :=
  hb.declaredBy_overrider_of_name hown hnone
    (fun hf hf' => (hb.declaredBy_unique hown hnames hf' hf).1) hfg hg

/-- A class whose lookup finds a function declares nothing under that name that overrides it. -/
theorem not_declaredBy_finder (hb : Built classes functions order h)
    (hmethods : NoMethodNamedDestructor classes) {name receiver owner : String}
    {f g : FunctionKey} (hg : h.Finds name receiver g)
    (howner : ∀ key, DeclaredBy h name g key → owner = key)
    (hbelow : h.DerivesFrom receiver owner) : ¬ DeclaredBy h name f receiver := by
  rintro ⟨c, hc, hf⟩
  obtain ⟨hmem, rfl⟩ := ClassTable.class?_eq_some hc
  cases hdecl : h.declaredIn? c.key name with
  | none =>
      refine ClassRecord.not_mem_declarations_of_declares? (hb.methodNames hmethods hmem) ?_ hf
      simpa [ClassTable.declaredIn?, hc] using hdecl
  | some e =>
      obtain rfl := (ClassTable.finds_iff_of_declares hdecl).mp hg
      obtain ⟨d, hd, hde⟩ := ClassTable.declaredIn?_eq_some.mp hdecl
      have hself := howner c.key ⟨d, hd, ClassRecord.mem_declarations_of_declares? hde⟩
      exact hb.derivesFrom_irrefl (hself ▸ hbelow)

end Built

/-! ## Main statements -/

/-- Dispatch is sound and precise.  If some nearest declaration of a method is virtual, then
whatever a class below the static one declares under the name of the method is a candidate; so a
dispatch is definite only if there is no such declaration or no nearest one is virtual.  And if
no overrides are declared and no function goes by two names, then every candidate that is no
nearest declaration is declared under the name of the method by a class below the static one. -/
theorem dispatch_sound_and_precise {classes : List ClassRecord} {functions : List FunctionRecord}
    {h : Hierarchy} (hbuild : build classes functions = .ok h)
    (hlisted : ListedByOneClass classes) (hmethods : NoMethodNamedDestructor classes)
    {receiver method : String} {d : Dispatch} (hd : h.dispatch receiver method = .ok d) :
    (∀ key c f, h.DerivesFrom key receiver → h.class? key = some c →
        (method, f) ∈ c.declarations → (∃ g ∈ h.nearest receiver method, h.isVirtual g = true) →
        f ∈ d.targets) ∧
      (d.confidence = .definite →
        (∀ key c f, h.DerivesFrom key receiver → h.class? key = some c →
          (method, f) ∉ c.declarations) ∨
        ∀ g ∈ h.nearest receiver method, h.isVirtual g = false) ∧
      ((∀ r ∈ functions, r.overrides = []) → ListedUnderOneName classes →
        ∀ f ∈ d.targets, f ∉ h.nearest receiver method →
          ∃ key c, h.DerivesFrom key receiver ∧ h.class? key = some c ∧
            (method, f) ∈ c.declarations) := by
  obtain ⟨order, hb⟩ := exists_built hbuild
  have hown := hb.ownedOnce hlisted
  obtain ⟨hknown, htargets, hdefinite⟩ := dispatched hd
  have sound : ∀ key c f, h.DerivesFrom key receiver → h.class? key = some c →
      (method, f) ∈ c.declarations → (∃ g ∈ h.nearest receiver method, h.isVirtual g = true) →
      f ∈ d.targets := by
    rintro key c f hbelow hc hf ⟨g, hg, hv⟩
    have hg' := ClassTable.mem_nearest_iff.mp hg
    have hv' := isVirtual_iff.mp hv
    exact (htargets f).mpr ⟨g, hg', Or.inr ⟨hv', hb.transGen_overrides hown hg' hv' hbelow hc hf,
      hb.ownedWithin_of_mem hown hknown hbelow.to_reflTransGen hc
        (ClassRecord.mem_members_of_mem_declarations hf)⟩⟩
  refine ⟨sound, fun hdef => ?_, fun hnone hnames f hf hnot => ?_⟩
  · by_contra hcon
    push Not at hcon
    obtain ⟨⟨key, c, f, hbelow, hc, hf⟩, g, hg, hv⟩ := hcon
    have hv' : h.isVirtual g = true := by simpa using hv
    have hg' := ClassTable.mem_nearest_iff.mp hg
    exact size_ne_one (sound key c f hbelow hc hf ⟨g, hg, hv'⟩)
      ((htargets g).mpr ⟨g, hg', Or.inl rfl⟩)
      (hb.ne_of_declared_below hown hg' hbelow hc hf) (hdefinite.mp hdef)
  · obtain ⟨g, hg, rfl | ⟨-, hover, howned⟩⟩ := (htargets f).mp hf
    · exact absurd (ClassTable.mem_nearest_iff.mpr hg) hnot
    · obtain ⟨e, he, hdecl, -⟩ := hg.exists_class
      have hge : Built.DeclaredBy h method g e.key :=
        ⟨e, he, ClassRecord.mem_declarations_of_declares? hdecl⟩
      obtain ⟨key, ⟨c, hc, hcf⟩, hbelow⟩ := hb.declaredBy_overrider hown hnames hnone hover hge
      -- the owner of the candidate is the class that declares it, and that is not the static one
      obtain ⟨hmem, rfl⟩ := ClassTable.class?_eq_some hc
      obtain ⟨k, hk, hko⟩ := ownedWithin_iff.mp howned
      rw [hown.owner? hmem (ClassRecord.mem_members_of_mem_declarations hcf)] at hko
      obtain rfl := Option.some.inj hko
      rcases reflTransGen_iff_eq_or_transGen.mp
        ((ClassTable.mem_derivedClosure_iff hb.nodup_keys hknown).mp hk) with he | hlower
      · subst he
        refine absurd ⟨c, hc, hcf⟩
          (hb.not_declaredBy_finder hmethods hg (fun key hkey => ?_) hbelow)
        exact (hb.declaredBy_unique hown hnames hge hkey).2
      · exact ⟨c.key, c, hlower, hc, hcf⟩

/-- A root with a virtual method and two branches that override it, one of them only after a
generation that does not; the last class joins the branches. -/
def twoBranches : List ClassRecord :=
  [{ key := "A", methods := [⟨"f", "A::f"⟩] },
   { key := "B", bases := [{ className := "A" }], methods := [⟨"f", "B::f"⟩] },
   { key := "C", bases := [{ className := "A" }] },
   { key := "D", bases := [{ className := "C" }], methods := [⟨"f", "D::f"⟩] },
   { key := "E", bases := [{ className := "B" }, { className := "D" }] }]

/-- Only the method at the root is declared virtual. -/
def virtualAtRoot : List FunctionRecord := [{ key := "A::f", isVirtual := true }]

theorem twoBranches_dispatch : ∃ h d, build twoBranches virtualAtRoot = .ok h ∧
    ListedByOneClass twoBranches ∧ NoMethodNamedDestructor twoBranches ∧
    h.dispatch "C" "f" = .ok d ∧ "D::f" ∈ d.targets ∧ d.confidence = .may ∧
    ∀ f ∈ d.targets, f ∉ h.nearest "C" "f" → ∃ key c, h.DerivesFrom key "C" ∧
      h.class? key = some c ∧ ("f", f) ∈ c.declarations := by
  have hlisted : ListedByOneClass twoBranches := by decide
  have hmethods : NoMethodNamedDestructor twoBranches := by decide
  have main := fun h d (hbuild : build twoBranches virtualAtRoot = .ok h)
    (hd : h.dispatch "C" "f" = .ok d) => dispatch_sound_and_precise hbuild hlisted hmethods hd
  refine ⟨_, _, by cbv, hlisted, hmethods, by cbv, ?_, by cbv, ?_⟩
  · refine (main _ _ (by cbv) (by cbv)).1 "D" _ "D::f" (.single ⟨?_, ?_⟩) (by cbv) (by decide)
      ⟨"A::f", ?_, by cbv⟩
    all_goals exact List.contains_iff_mem.mp (by cbv)
  · exact (main _ _ (by cbv) (by cbv)).2.2 (by decide) (by decide)

/-- Every candidate of the ordinary call that is the function a member pointer holds, or overrides
it, is also reached through the pointer. -/
def PointerCovers (h : Hierarchy) (f : FunctionKey) (receiver : String) (d : Dispatch) : Prop :=
  ∀ g ∈ d.targets, g = f ∨ g ∈ h.overriders f → g ∈ h.memberPointerTargets f (some receiver)

theorem Dispatched.pointerCovers_iff {h : Hierarchy} {receiver method : String} {f : FunctionKey}
    {d : Dispatch} (hd : h.Dispatched receiver method d) (hv : f ∈ h.virtuals) :
    h.PointerCovers f receiver d ↔
      ∀ g ∈ h.nearest receiver method, g ∈ h.overriders f →
        g = f ∨ h.ownedWithin (h.derivedClosure receiver) g = true := by
  constructor
  · intro hall g hg hover
    have htarget := (hd.mem_targets g).mpr ⟨g, ClassTable.mem_nearest_iff.mp hg, Or.inl rfl⟩
    exact (mem_memberPointerTargets_some.mp (hall g htarget (Or.inr hover))).imp_right (·.2.2)
  · intro hnear g hg hfg
    refine mem_memberPointerTargets_some.mpr ?_
    rcases hfg with rfl | hover
    · exact Or.inl rfl
    · have hpath := mem_overriders_iff.mp hover
      obtain ⟨e, he, rfl | ⟨-, -, howned⟩⟩ := (hd.mem_targets g).mp hg
      · exact (hnear g (ClassTable.mem_nearest_iff.mpr he) hover).imp_right
          fun howned => ⟨hv, hpath, howned⟩
      · exact Or.inr ⟨hv, hpath, howned⟩

/-- A call through a member pointer to a virtual function reaches, of the candidates of the
ordinary call, all that are the function or override it, exactly if every nearest declaration that
overrides the function is owned at or below the static class.  Where every member function is
listed by one class, that is: the static class declares the method itself, or it inherits no
override of the function. -/
theorem memberPointer_covers_dispatch_iff {classes : List ClassRecord}
    {functions : List FunctionRecord} {h : Hierarchy} (hbuild : build classes functions = .ok h)
    {receiver method : String} {f : FunctionKey} {d : Dispatch} (hv : h.isVirtual f = true)
    (hd : h.dispatch receiver method = .ok d) :
    (h.PointerCovers f receiver d ↔
        ∀ g ∈ h.nearest receiver method, g ∈ h.overriders f →
          g = f ∨ h.ownedWithin (h.derivedClosure receiver) g = true) ∧
      (ListedByOneClass classes →
        (h.PointerCovers f receiver d ↔
          (h.declaredIn? receiver method).isSome = true ∨
            ∀ g ∈ h.nearest receiver method, g ∈ h.overriders f → g = f)) := by
  obtain ⟨order, hb⟩ := exists_built hbuild
  have hdisp := dispatched hd
  have covers := hdisp.pointerCovers_iff (isVirtual_iff.mp hv)
  refine ⟨covers, fun hlisted => covers.trans ?_⟩
  have howned : ∀ g ∈ h.nearest receiver method,
      (h.ownedWithin (h.derivedClosure receiver) g = true ↔
        (h.declaredIn? receiver method).isSome = true) := fun g hg =>
    hb.ownedWithin_iff_declares (hb.ownedOnce hlisted) hdisp.known
      (ClassTable.mem_nearest_iff.mp hg)
  constructor
  · intro hnear
    by_cases hdecl : (h.declaredIn? receiver method).isSome = true
    · exact Or.inl hdecl
    · exact Or.inr fun g hg hover =>
        (hnear g hg hover).resolve_right fun ho => hdecl ((howned g hg).mp ho)
  · rintro (hdecl | hnone) g hg hover
    · exact Or.inr ((howned g hg).mpr hdecl)
    · exact Or.inl (hnone g hg hover)

/-- A class that inherits an override and declares nothing itself. -/
def inheritingReceiver : List ClassRecord :=
  [{ key := "A", methods := [⟨"f", "A::f"⟩] },
   { key := "B", bases := [{ className := "A" }], methods := [⟨"f", "B::f"⟩] },
   { key := "R", bases := [{ className := "B" }] }]

/-- The ordinary call on the last class runs the inherited override, which the call through a
member pointer to the root's method misses. -/
theorem inheritingReceiver_not_covered : ∃ h c d, build inheritingReceiver virtualAtRoot = .ok h ∧
    h.class? "A" = some c ∧ ("f", "A::f") ∈ c.declarations ∧ h.isVirtual "A::f" = true ∧
    "R" ∈ h.derivedClosure "A" ∧ h.dispatch "R" "f" = .ok d ∧
    ¬ h.PointerCovers "A::f" "R" d := by
  refine ⟨_, _, _, by cbv, by cbv, by decide, by cbv, ?_, by cbv, fun hcovers => ?_⟩
  · cbv
    exact List.contains_iff_mem.mp (by decide)
  · have hmem := hcovers "B::f" (List.contains_iff_mem.mp (by cbv))
      (Or.inr (List.contains_iff_mem.mp (by cbv)))
    exact absurd (List.contains_iff_mem.mpr hmem) (by cbv; decide)

theorem inheritingReceiver_covers_own : ∃ h d, build inheritingReceiver virtualAtRoot = .ok h ∧
    h.isVirtual "A::f" = true ∧ h.dispatch "B" "f" = .ok d ∧
    ListedByOneClass inheritingReceiver ∧ h.PointerCovers "A::f" "B" d := by
  have hlisted : ListedByOneClass inheritingReceiver := by decide
  have main := fun h d (hbuild : build inheritingReceiver virtualAtRoot = .ok h)
    (hv : h.isVirtual "A::f" = true) (hd : h.dispatch "B" "f" = .ok d) =>
    (memberPointer_covers_dispatch_iff hbuild hv hd).2 hlisted
  refine ⟨_, _, by cbv, by cbv, by cbv, hlisted, ?_⟩
  exact (main _ _ (by cbv) (by cbv) (by cbv)).mpr (Or.inl (by cbv))

end Hierarchy

end CallGraphs
