import CallGraphs.Proofs.Classes.Growth

/-!
# Classes in another order

The same records in another order give another class table and the classes are
looked at in another order.  If the records of one class agree and no function
is a member of two classes, the two hierarchies are parts of each other, with the
same records of classes (`Hierarchy.alike_of_build`), and one can be built if the
other can.

So the hierarchies agree, and moreover slots stand for the same slots.  Where an
answer is a list in the order of the classes, its members are the same.
-/

namespace CallGraphs

theorem RecordsAgree.subset {classes classes' : List ClassRecord} (h : RecordsAgree classes)
    (hsub : classes' ⊆ classes) : RecordsAgree classes' :=
  forall_pairs_of_subset hsub h

theorem Hierarchy.ListedByOneClass.subset {classes classes' : List ClassRecord}
    (h : ListedByOneClass classes) (hsub : classes' ⊆ classes) : ListedByOneClass classes' :=
  forall_pairs_of_subset hsub h

namespace Hierarchy

/-- Two hierarchies are parts of each other, with the same records of classes. -/
structure Alike (h h' : Hierarchy) : Prop where
  forth : h.Within h'
  back : h'.Within h

namespace Alike

variable {h h' : Hierarchy} (ha : h.Alike h')
include ha

theorem agree : h.Agree h' := ⟨ha.forth.toPartOf, ha.back.toPartOf⟩

/-! ## Classes and slots -/

theorem class?_eq (key : String) : h.class? key = h'.class? key :=
  Option.ext fun c => ⟨ha.forth.table key c, ha.back.table key c⟩

theorem canonical_eq (slot : Slot) : h.canonical slot = h'.canonical slot := by
  induction slot with
  | field className field =>
      have hfirst : h.unionField? className = h'.unionField? className := by
        rw [ClassTable.unionField?, ClassTable.unionField?, ha.class?_eq]
      have hpointer : h.mayHoldPointer className field = h'.mayHoldPointer className field := by
        rw [ClassTable.mayHoldPointer, ClassTable.mayHoldPointer, ha.class?_eq]
      rw [ClassTable.canonical, ClassTable.canonical, hfirst, hpointer]
  | element array ih => simp only [ClassTable.canonical, ih]
  | _ => rfl

/-! ## Lifetimes -/

theorem mem_records_iff {c : ClassRecord} : c ∈ h.records ↔ c ∈ h'.records :=
  ⟨ha.forth.table.records ha.forth.nodup_keys, ha.back.table.records ha.back.nodup_keys⟩

theorem mem_partDestroyTargets_iff {key : String} {f : FunctionKey} :
    f ∈ h.partDestroyTargets key ↔ f ∈ h'.partDestroyTargets key :=
  ⟨fun hf => ha.forth.table.partDestroyTargets key hf,
    fun hf => ha.back.table.partDestroyTargets key hf⟩

theorem mem_partConstructTargets_iff {key : String} {f : FunctionKey} :
    f ∈ h.partConstructTargets key ↔ f ∈ h'.partConstructTargets key :=
  ⟨fun hf => ha.forth.table.partConstructTargets key hf,
    fun hf => ha.back.table.partConstructTargets key hf⟩

end Alike

/-! ## The same records -/

/-- If a hierarchy can be built, so can one of fewer records. -/
theorem exists_build_of_subset {classes classes' : List ClassRecord}
    {functions functions' : List FunctionRecord} (hsub : classes ⊆ classes')
    (hagree : RecordsAgree classes') (hbuild : ∃ h, build classes' functions' = .ok h) :
    ∃ h, build classes functions = .ok h :=
  exists_build_of_partOf (ClassTable.within_ofRecords hsub hagree).partOf hbuild

/-- The same records, in another order or with some of them repeated, give hierarchies that are
parts of each other. -/
theorem alike_of_build {classes classes' : List ClassRecord}
    {functions functions' : List FunctionRecord} {h h' : Hierarchy}
    (hbuild : build classes functions = .ok h) (hbuild' : build classes' functions' = .ok h')
    (hclasses : ∀ c, c ∈ classes ↔ c ∈ classes') (hfunctions : ∀ r, r ∈ functions ↔ r ∈ functions')
    (hagree : RecordsAgree classes) (hlisted : ListedByOneClass classes) : h.Alike h' := by
  have hsub : classes ⊆ classes' := fun c => (hclasses c).mp
  have hsub' : classes' ⊆ classes := fun c => (hclasses c).mpr
  constructor
  · exact within_of_build hbuild hbuild' hsub (fun r => (hfunctions r).mp) (hagree.subset hsub')
      (hlisted.subset hsub')
  · exact within_of_build hbuild' hbuild hsub' (fun r => (hfunctions r).mpr) hagree hlisted

end Hierarchy

end CallGraphs
