import CallGraphs.Proofs.Classes.Parts

/-!
# Class records in any order

Records of one class may differ, as when two units show different parts of it.
Joining is first come, first served: the order of records shows in the order of
classes, bases and methods, and in which of two destructors or of two methods of
one name is kept.  It does not show in the answers of the hierarchy if there is
nothing to choose (`Hierarchy.builtAlike_of_perm`): over all records of a class, a
method name stands for one function, a function goes by one name, and the
destructors are the same.  Then what the table says of a class is what some record
of it says, and so the tables of two orders are parts of each other.

That a function goes by one name cannot be left out.  A later record adds only
methods whose function is new, so a second name of a function is known if the first
record has it, and lost if a later one has
(`Hierarchy.twoNames_not_builtAlike`).
-/

namespace CallGraphs

/-! ## Records that fit together -/

/-- Over all records of a class, a method name stands for one function. -/
def OneFunctionPerName (classes : List ClassRecord) : Prop :=
  ∀ c ∈ classes, ∀ d ∈ classes, c.key = d.key →
    ∀ m ∈ c.methods, ∀ n ∈ d.methods, m.name = n.name → m.function = n.function

/-- Over all records of a class, a function goes by one method name. -/
def OneNamePerFunction (classes : List ClassRecord) : Prop :=
  ∀ c ∈ classes, ∀ d ∈ classes, c.key = d.key →
    ∀ m ∈ c.methods, ∀ n ∈ d.methods, m.function = n.function → m.name = n.name

/-- The destructors that records of one class declare are the same. -/
def DestructorsAgree (classes : List ClassRecord) : Prop :=
  ∀ c ∈ classes, ∀ d ∈ classes, c.key = d.key →
    ∀ x ∈ c.destructor, ∀ y ∈ d.destructor, x = y

instance (classes : List ClassRecord) : Decidable (OneFunctionPerName classes) :=
  inferInstanceAs (Decidable (∀ c ∈ classes, ∀ d ∈ classes, c.key = d.key →
    ∀ m ∈ c.methods, ∀ n ∈ d.methods, m.name = n.name → m.function = n.function))

instance (classes : List ClassRecord) : Decidable (OneNamePerFunction classes) :=
  inferInstanceAs (Decidable (∀ c ∈ classes, ∀ d ∈ classes, c.key = d.key →
    ∀ m ∈ c.methods, ∀ n ∈ d.methods, m.function = n.function → m.name = n.name))

instance (classes : List ClassRecord) : Decidable (DestructorsAgree classes) :=
  inferInstanceAs (Decidable (∀ c ∈ classes, ∀ d ∈ classes, c.key = d.key →
    ∀ x ∈ c.destructor, ∀ y ∈ d.destructor, x = y))

/-! ## What a table says of a class -/

/-- Where a name stands for one function, the methods decide what the name is looked up as. -/
theorem ClassRecord.method?_eq_some_iff {c : ClassRecord} {name : String} {f : FunctionKey}
    (hone : ∀ m ∈ c.methods, ∀ n ∈ c.methods, m.name = n.name → m.function = n.function) :
    c.method? name = some f ↔ ∃ m ∈ c.methods, m.name = name ∧ m.function = f := by
  rw [method?, Option.map_eq_some_iff]
  constructor
  · rintro ⟨m, hfind, hf⟩
    exact ⟨m, List.mem_of_find?_eq_some hfind, by simpa using List.find?_some hfind, hf⟩
  · rintro ⟨m, hm, hname, hf⟩
    obtain ⟨n, hfind⟩ : ∃ n, c.methods.find? (·.name = name) = some n :=
      Option.isSome_iff_exists.mp (List.find?_isSome.mpr ⟨m, hm, by simpa using hname⟩)
    have hn : n.name = name := by simpa using List.find?_some hfind
    exact ⟨n, hfind, (hone n (List.mem_of_find?_eq_some hfind) m hm (hn.trans hname.symm)).trans hf⟩

/-- Records of one class are parts of each other if they differ in the order of what they list, and
a method name stands for one function. -/
theorem ClassRecord.partOf_of_mem_iff {c c' : ClassRecord}
    (hbases : ∀ base, base ∈ c.baseNames ↔ base ∈ c'.baseNames)
    (hmethods : ∀ m, m ∈ c.methods ↔ m ∈ c'.methods)
    (hconstructors : ∀ f, (∃ k ∈ c.constructors, k.function = f) ↔
      ∃ k ∈ c'.constructors, k.function = f)
    (hdestructor : c.destructor = c'.destructor)
    (hone : ∀ m ∈ c.methods, ∀ n ∈ c.methods, m.name = n.name → m.function = n.function) :
    c.PartOf c' where
  baseNames base := (hbases base).mp
  declarations := by
    rintro ⟨name, f⟩ hf
    rw [mem_declarations] at hf ⊢
    simpa only [hmethods, hdestructor] using hf
  members := by
    intro f hf
    rw [mem_members] at hf ⊢
    simpa only [hmethods, hconstructors, hdestructor] using hf
  destructor d hd := hdestructor ▸ hd
  declares? name := by
    have hmethod : c.method? name = c'.method? name := Option.ext fun f => by
      rw [method?_eq_some_iff hone,
        method?_eq_some_iff (forall_pairs_of_subset (fun m => (hmethods m).mpr) hone)]
      simp only [hmethods]
    rw [ClassRecord.declares?, ClassRecord.declares?, hdestructor, hmethod]

namespace ClassTable

section Says

variable {classes : List ClassRecord} {key : String} {c : ClassRecord}
  (hc : (ofRecords classes).class? key = some c)
include hc

/-- The record of a class is joined from its records. -/
theorem exists_joined_of_class? : ∃ first rest, c = first.joined rest ∧
    ∀ r, r ∈ first :: rest ↔ r ∈ classes ∧ r.key = key := by
  rw [class?_ofRecords_eq] at hc
  have hmem : ∀ r, r ∈ classes.filter (·.key = key) ↔ r ∈ classes ∧ r.key = key := by simp
  cases hrecords : classes.filter (·.key = key) with
  | nil =>
      rw [hrecords] at hc
      exact absurd hc (by simp [ClassRecord.joined?])
  | cons first rest =>
      rw [hrecords] at hc hmem
      exact ⟨first, rest, (Option.some.inj hc).symm, hmem⟩

theorem mem_baseNames_of_class? {base : String} :
    base ∈ c.baseNames ↔ ∃ r ∈ classes, r.key = key ∧ base ∈ r.baseNames := by
  obtain ⟨first, rest, rfl, hmem⟩ := exists_joined_of_class? hc
  rw [ClassRecord.mem_baseNames_joined]
  simp only [hmem, and_assoc]

theorem mem_methods_of_class? (hone : OneNamePerFunction classes) {m : MethodDecl} :
    m ∈ c.methods ↔ ∃ r ∈ classes, r.key = key ∧ m ∈ r.methods := by
  obtain ⟨first, rest, rfl, hmem⟩ := exists_joined_of_class? hc
  have hsome : ∀ m, m ∈ first.methods ++ rest.flatMap (·.methods) ↔
      ∃ r ∈ classes, r.key = key ∧ m ∈ r.methods := by
    intro m
    rw [← List.flatMap_cons, List.mem_flatMap]
    simp only [hmem, and_assoc]
  rw [ClassRecord.joined_appends _ (·.methods) (fun _ _ => rfl), mem_appendNew_iff,
    ← List.mem_append, hsome]
  intro m hm n hn hfunction
  obtain ⟨r, hr, hkey, hm⟩ := (hsome m).mp hm
  obtain ⟨s, hs, hkey', hn⟩ := (hsome n).mp hn
  have hname := hone r hr s hs (hkey.trans hkey'.symm) m hm n hn hfunction
  cases m
  cases n
  simp_all

theorem mem_constructors_of_class? {f : FunctionKey} :
    (∃ k ∈ c.constructors, k.function = f) ↔
      ∃ r ∈ classes, r.key = key ∧ ∃ k ∈ r.constructors, k.function = f := by
  obtain ⟨first, rest, rfl, hmem⟩ := exists_joined_of_class? hc
  rw [← List.mem_map, ClassRecord.joined_appends _ (·.constructors) (fun _ _ => rfl),
    mem_map_appendNew, ← List.mem_append, ← List.map_append, ← List.flatMap_cons]
  simp only [List.mem_map, List.mem_flatMap, hmem]
  constructor
  · rintro ⟨k, ⟨r, ⟨hr, hkey⟩, hk⟩, hf⟩
    exact ⟨r, hr, hkey, k, hk, hf⟩
  · rintro ⟨r, hr, hkey, k, hk, hf⟩
    exact ⟨k, ⟨r, ⟨hr, hkey⟩, hk⟩, hf⟩

theorem destructor_of_class? (hagree : DestructorsAgree classes) {d : DestructorDecl} :
    c.destructor = some d ↔ ∃ r ∈ classes, r.key = key ∧ r.destructor = some d := by
  obtain ⟨first, rest, rfl, hmem⟩ := exists_joined_of_class? hc
  rw [ClassRecord.destructor_joined]
  constructor
  · intro hfirst
    obtain ⟨r, hr, hd⟩ := List.exists_of_findSome?_eq_some hfirst
    obtain ⟨hr, hkey⟩ := (hmem r).mp hr
    exact ⟨r, hr, hkey, hd⟩
  · rintro ⟨r, hr, hkey, hd⟩
    -- some destructor is found, and it agrees with this one
    have hfound : ((first :: rest).findSome? (·.destructor)).isSome :=
      List.findSome?_isSome_iff.mpr ⟨r, (hmem r).mpr ⟨hr, hkey⟩, by simp [hd]⟩
    obtain ⟨e, he⟩ := Option.isSome_iff_exists.mp hfound
    obtain ⟨s, hs, hse⟩ := List.exists_of_findSome?_eq_some he
    obtain ⟨hs, hkey'⟩ := (hmem s).mp hs
    rw [he, hagree s hs r hr (hkey'.trans hkey.symm) e hse d hd]

end Says

/-- The tables of the same records in two orders are parts of each other, if the records of a class
fit together. -/
theorem partOf_ofRecords {classes classes' : List ClassRecord}
    (hmem : ∀ c, c ∈ classes ↔ c ∈ classes') (hnames : OneFunctionPerName classes)
    (hfunctions : OneNamePerFunction classes) (hdestructors : DestructorsAgree classes) :
    (ofRecords classes).PartOf (ofRecords classes') := by
  have hsub : classes' ⊆ classes := fun c => (hmem c).mpr
  intro key c hc
  obtain ⟨c', hc'⟩ : ∃ c', (ofRecords classes').class? key = some c' := by
    refine Option.ne_none_iff_exists'.mp fun hnone => ?_
    obtain ⟨r, hr, hkey⟩ := mem_keys_ofRecords.mp (mem_keys_of_class? hc)
    exact class?_eq_none_iff.mp hnone (mem_keys_ofRecords.mpr ⟨r, (hmem r).mp hr, hkey⟩)
  refine ⟨c', hc', ClassRecord.partOf_of_mem_iff ?_ ?_ ?_ ?_ ?_⟩
  · intro base
    rw [mem_baseNames_of_class? hc, mem_baseNames_of_class? hc']
    simp only [hmem]
  · intro m
    rw [mem_methods_of_class? hc hfunctions,
      mem_methods_of_class? hc' (forall_pairs_of_subset hsub hfunctions)]
    simp only [hmem]
  · intro f
    rw [mem_constructors_of_class? hc, mem_constructors_of_class? hc']
    simp only [hmem]
  · refine Option.ext fun d => ?_
    rw [destructor_of_class? hc hdestructors,
      destructor_of_class? hc' (forall_pairs_of_subset hsub hdestructors)]
    simp only [hmem]
  · intro m hm n hn
    obtain ⟨r, hr, hkey, hm⟩ := (mem_methods_of_class? hc hfunctions).mp hm
    obtain ⟨s, hs, hkey', hn⟩ := (mem_methods_of_class? hc hfunctions).mp hn
    exact hnames r hr s hs (hkey.trans hkey'.symm) m hm n hn

end ClassTable

namespace Hierarchy

/-! ## The same answers -/

/-- Two attempts to build a hierarchy come to the same: both fail, or both give a hierarchy, and
these have the same virtual functions, overrides, virtual destructors and derived classes, and
dispatch every call alike. -/
def BuiltAlike : Except String Hierarchy → Except String Hierarchy → Prop
  | .error _, .error _ => True
  | .ok h, .ok h' =>
      h.overrides = h'.overrides ∧ h.virtuals = h'.virtuals ∧
        h.virtualDestructors = h'.virtualDestructors ∧
        (∀ base key, key ∈ h.derivedClosure base ↔ key ∈ h'.derivedClosure base) ∧
        ∀ receiver method, h.dispatch receiver method = h'.dispatch receiver method
  | _, _ => False

theorem BuiltAlike.dispatch_eq {r r' : Except String Hierarchy} (h : BuiltAlike r r')
    (receiver method : String) :
    r.toOption.map (·.dispatch receiver method) = r'.toOption.map (·.dispatch receiver method) := by
  match r, r', h with
  | .error _, .error _, _ => rfl
  | .ok _, .ok _, ⟨_, _, _, _, hdispatch⟩ => exact congrArg some (hdispatch receiver method)

/-- A class with one function under two names, and another record of it that shows none. -/
def twoNames : List ClassRecord :=
  [{ key := "T", methods := [⟨"f", "F"⟩, ⟨"g", "F"⟩] }, { key := "T" }]

/-- If the record without methods comes first, the second name of the function is lost. -/
theorem twoNames_not_builtAlike :
    OneFunctionPerName twoNames ∧ DestructorsAgree twoNames ∧ ListedByOneClass twoNames ∧
      twoNames.Perm twoNames.reverse ∧
      ¬ BuiltAlike (build twoNames []) (build twoNames.reverse []) := by
  refine ⟨by decide, by decide, by decide, (List.reverse_perm twoNames).symm, fun halike => ?_⟩
  have hknown : (build twoNames []).toOption.map (·.dispatch "T" "g") =
      some (.ok ⟨.ofList ["F"], .definite⟩) := by cbv
  have hlost : (build twoNames.reverse []).toOption.map (·.dispatch "T" "g") =
      some (.error .unknownMethod) := by cbv
  have hsame := halike.dispatch_eq "T" "g"
  rw [hknown, hlost] at hsame
  exact absurd hsame (by simp)

/-- The order of class and function records does not show in the answers of the hierarchy, if the
records of a class fit together and no function is a member of two classes. -/
theorem builtAlike_of_perm {classes classes' : List ClassRecord}
    {functions functions' : List FunctionRecord} (hclasses : classes.Perm classes')
    (hrecords : functions.Perm functions') (hnames : OneFunctionPerName classes)
    (hfunctions : OneNamePerFunction classes) (hdestructors : DestructorsAgree classes)
    (hlisted : ListedByOneClass classes) :
    BuiltAlike (build classes functions) (build classes' functions') := by
  have hsub : classes' ⊆ classes := hclasses.symm.subset
  have hforth := ClassTable.partOf_ofRecords (fun _ => hclasses.mem_iff) hnames hfunctions
    hdestructors
  have hback := ClassTable.partOf_ofRecords (fun _ => hclasses.symm.mem_iff)
    (forall_pairs_of_subset hsub hnames) (forall_pairs_of_subset hsub hfunctions)
    (forall_pairs_of_subset hsub hdestructors)
  have hlisted' : ListedByOneClass classes' := forall_pairs_of_subset hsub hlisted
  cases hbuild : build classes functions with
  | error bad =>
      cases hbuild' : build classes' functions' with
      | error bad' => trivial
      | ok h' =>
          obtain ⟨h, hok⟩ : ∃ h, build classes functions = .ok h :=
            exists_build_of_partOf hforth ⟨h', hbuild'⟩
          exact absurd (hbuild.symm.trans hok) (by simp)
  | ok h =>
      cases hbuild' : build classes' functions' with
      | error bad' =>
          obtain ⟨h', hok⟩ : ∃ h', build classes' functions' = .ok h' :=
            exists_build_of_partOf hback ⟨h, hbuild⟩
          exact absurd (hbuild'.symm.trans hok) (by simp)
      | ok h' =>
          have ha : h.Agree h' :=
            ⟨partOf_of_build hbuild hbuild' hforth hrecords.subset hlisted hlisted',
              partOf_of_build hbuild' hbuild hback hrecords.symm.subset hlisted' hlisted⟩
          exact ⟨ha.overrides_eq, ha.virtuals_eq, ha.virtualDestructors_eq,
            fun _ _ => ha.mem_derivedClosure_iff, ha.dispatch_eq⟩

/-- A shape and a square, each of which is shown in two parts. -/
def shownInParts : List ClassRecord :=
  [{ key := "Shape", methods := [⟨"area", "Shape::area"⟩] },
   { key := "Square", methods := [⟨"side", "Square::side"⟩] },
   { key := "Square", bases := [{ className := "Shape" }], methods := [⟨"area", "Square::area"⟩] },
   { key := "Shape", methods := [⟨"name", "Shape::name"⟩, ⟨"area", "Shape::area"⟩],
     destructor := some ⟨"Shape::~Shape", true⟩ }]

/-- The functions of the shape, the first of which is virtual. -/
def shapeFunctions : List FunctionRecord :=
  [{ key := "Shape::area", isVirtual := true }, { key := "Shape::name" }]

/-- The parts in the opposite order make the same hierarchy, one in which the square overrides the
shape. -/
theorem shownInParts_builtAlike :
    shownInParts.Perm shownInParts.reverse ∧ shapeFunctions.Perm shapeFunctions.reverse ∧
      OneFunctionPerName shownInParts ∧ OneNamePerFunction shownInParts ∧
      DestructorsAgree shownInParts ∧ ListedByOneClass shownInParts ∧
      (build shownInParts shapeFunctions).toOption.map (·.dispatch "Shape" "area") =
        some (.ok ⟨.ofList ["Shape::area", "Square::area"], .may⟩) ∧
      BuiltAlike (build shownInParts shapeFunctions)
        (build shownInParts.reverse shapeFunctions.reverse) := by
  have hclasses : shownInParts.Perm shownInParts.reverse := (List.reverse_perm _).symm
  have hrecords : shapeFunctions.Perm shapeFunctions.reverse := (List.reverse_perm _).symm
  have hnames : OneFunctionPerName shownInParts := by decide
  have hfunctions : OneNamePerFunction shownInParts := by decide
  have hdestructors : DestructorsAgree shownInParts := by decide
  have hlisted : ListedByOneClass shownInParts := by decide
  exact ⟨hclasses, hrecords, hnames, hfunctions, hdestructors, hlisted, by cbv,
    builtAlike_of_perm hclasses hrecords hnames hfunctions hdestructors hlisted⟩

end Hierarchy

end CallGraphs
