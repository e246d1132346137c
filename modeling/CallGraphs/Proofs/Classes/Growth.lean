import CallGraphs.Classes.Unions
import CallGraphs.Proofs.Classes.Lifetimes
import CallGraphs.Proofs.Classes.Parts

/-!
# More classes

What becomes of the answers of a hierarchy when more classes and functions are
known.  The records of one class must be the same wherever they occur
(`RecordsAgree`): then a class that is known stays what it is, and all that is
said of it carries over.

* A table is `Within` another one if the classes of the first have the same
  records in the second.  Then it is a part of the other one, slots stand for the
  same slots, and the parts of objects are there too.
* A hierarchy is `Within` another one if it is a part of it and its table is within
  the other table; so it is for hierarchies that were built from fewer and from
  more records (`Hierarchy.within_of_build`).

What does not carry over is certainty: a dispatch to one target and a deletion
that runs one destructor may have others when more classes are known.
-/

namespace CallGraphs

open Relation

/-! ## Equal records -/

/-- The records of one class are the same wherever they occur. -/
def RecordsAgree (classes : List ClassRecord) : Prop :=
  ∀ c ∈ classes, ∀ d ∈ classes, c.key = d.key → c = d

instance (classes : List ClassRecord) : Decidable (RecordsAgree classes) :=
  inferInstanceAs (Decidable (∀ c ∈ classes, ∀ d ∈ classes, c.key = d.key → c = d))

theorem appendNew_of_forall {α : Type} {same : α → α → Bool} {l : List α} :
    ∀ {more : List α}, (∀ x ∈ more, l.any (same x) = true) → appendNew same l more = l
  | [], _ => rfl
  | x :: more, h => by
      rw [appendNew, List.foldl_cons, if_pos (h x List.mem_cons_self)]
      exact appendNew_of_forall fun y hy => h y (List.mem_cons_of_mem _ hy)

theorem appendNew_self {α : Type} {same : α → α → Bool} (hsame : ∀ x, same x x = true)
    (l : List α) : appendNew same l l = l :=
  appendNew_of_forall fun x hx => List.any_eq_true.mpr ⟨x, hx, hsame x⟩

theorem ClassRecord.absorb_self (c : ClassRecord) : c.absorb c = c := by
  rw [absorb, appendNew_self (by simp), appendNew_self (by simp), appendNew_self (by simp),
    appendNew_self (by simp), Bool.or_self]
  cases c with
  | mk _ _ _ _ destructor _ _ => cases destructor <;> rfl

namespace ClassTable

/-- The table of records that agree has these records. -/
theorem class?_ofRecords {rs : List ClassRecord} (hagree : RecordsAgree rs) {key : String}
    {c : ClassRecord} : (ofRecords rs).class? key = some c ↔ c ∈ rs ∧ c.key = key := by
  -- joining equal records changes nothing
  have hkept : ∀ c ∈ (ofRecords rs).records, c ∈ rs := by
    refine forall_records_ofRecords (fun c r hkey hc hr => ?_) fun r hr => hr
    rw [hagree c hc r hr hkey, ClassRecord.absorb_self]
    exact hr
  constructor
  · intro h
    obtain ⟨hmem, hkey⟩ := class?_eq_some h
    exact ⟨hkept c hmem, hkey⟩
  · rintro ⟨hc, rfl⟩
    cases h : (ofRecords rs).class? c.key with
    | none => exact absurd (mem_keys_ofRecords.mpr ⟨c, hc, rfl⟩) (class?_eq_none_iff.mp h)
    | some d =>
        obtain ⟨hmem, hkey⟩ := class?_eq_some h
        rw [hagree d (hkept d hmem) c hc hkey]

/-! ## Tables -/

/-- The classes of a table have the same records in another one. -/
def Within (t t' : ClassTable) : Prop :=
  ∀ key c, t.class? key = some c → t'.class? key = some c

theorem within_ofRecords {rs rs' : List ClassRecord} (hsub : rs ⊆ rs')
    (hagree : RecordsAgree rs') : (ofRecords rs).Within (ofRecords rs') := by
  have hless : RecordsAgree rs := forall_pairs_of_subset hsub hagree
  intro key c hc
  obtain ⟨hmem, hkey⟩ := (class?_ofRecords hless).mp hc
  exact (class?_ofRecords hagree).mpr ⟨hsub hmem, hkey⟩

namespace Within

variable {t t' : ClassTable} (hw : t.Within t')
include hw

theorem partOf : t.PartOf t' := fun key c hc => ⟨c, hw key c hc, .refl c⟩

theorem records (hk : t.keys.Nodup) {c : ClassRecord} (h : c ∈ t.records) : c ∈ t'.records :=
  (class?_eq_some (hw _ _ (class?_of_mem hk h))).1

/-! ## Slots -/

omit hw in
theorem unionField?_eq_some {className first : String} (h : t.unionField? className = some first) :
    ∃ c, t.class? className = some c := by
  rw [unionField?] at h
  split at h
  · next c hc => exact ⟨c, hc⟩
  · exact absurd h (by simp)

/-- A slot that stands for others stands for them among more classes too. -/
theorem canonical_canonical (slot : Slot) :
    t'.canonical (t.canonical slot) = t'.canonical slot := by
  induction slot with
  | field className field =>
      rw [canonical]
      split
      · next first hfirst =>
        obtain ⟨c, hc⟩ := unionField?_eq_some hfirst
        have hfirst' : t'.unionField? className = some first := by
          rw [unionField?, hc] at hfirst
          rw [unionField?, hw _ c hc]
          exact hfirst
        have hpointer : t'.mayHoldPointer className field = t.mayHoldPointer className field := by
          rw [mayHoldPointer, mayHoldPointer, hc, hw _ c hc]
        split
        · next hmay => simp [canonical, hfirst', hpointer, hmay]
        · rfl
      · rfl
  | element array ih => simp only [canonical, ih]
  | _ => rfl

/-! ## Parts of objects -/

theorem hasPart {key part : String} (h : t.HasPart key part) : t'.HasPart key part := by
  obtain ⟨c, hc, hpart⟩ := h
  exact ⟨c, hw key c hc, hpart⟩

/-- What a chain of parts leads to, it leads to among more classes too. -/
theorem exists_chain {implicit : ClassRecord → Prop} {own : ClassRecord → Option FunctionKey}
    {key : String} {f : FunctionKey}
    (h : ∃ last, ReflTransGen (t.LeavesTo implicit) key last ∧
      ∃ c, t.class? last = some c ∧ own c = some f) :
    ∃ last, ReflTransGen (t'.LeavesTo implicit) key last ∧
      ∃ c, t'.class? last = some c ∧ own c = some f := by
  obtain ⟨last, hchain, c, hc, hown⟩ := h
  refine ⟨last, ReflTransGen.mono ?_ _ _ hchain, c, hw last c hc, hown⟩
  rintro key part ⟨c, hc, himplicit, hpart⟩
  exact ⟨c, hw key c hc, himplicit, hpart⟩

theorem destroyTargets (key : String) : t.destroyTargets key ⊆ t'.destroyTargets key :=
  fun _ hf => mem_destroyTargets_iff.mpr (hw.exists_chain (mem_destroyTargets_iff.mp hf))

theorem constructTargets (key : String) : t.constructTargets key ⊆ t'.constructTargets key :=
  fun _ hf => mem_constructTargets_iff.mpr (hw.exists_chain (mem_constructTargets_iff.mp hf))

theorem partDestroyTargets (key : String) :
    t.partDestroyTargets key ⊆ t'.partDestroyTargets key := by
  intro f hf
  obtain ⟨part, hpart, hf⟩ := ((partDestroyTargets_exact key).2 f).mp hf
  exact ((partDestroyTargets_exact key).2 f).mpr ⟨part, hw.hasPart hpart, hw.destroyTargets part hf⟩

theorem partConstructTargets (key : String) :
    t.partConstructTargets key ⊆ t'.partConstructTargets key := by
  intro f hf
  obtain ⟨part, hpart, hf⟩ := ((partConstructTargets_exact key).2 f).mp hf
  exact ((partConstructTargets_exact key).2 f).mpr
    ⟨part, hw.hasPart hpart, hw.constructTargets part hf⟩

end Within

end ClassTable

/-! ## Hierarchies -/

namespace Hierarchy

/-- A hierarchy is a part of another one, and its classes have the same records there. -/
structure Within (h h' : Hierarchy) : Prop extends h.PartOf h' where
  table : h.toClassTable.Within h'.toClassTable

/-- More records give a hierarchy that the one of fewer records is a part of, if the records of one
class agree and no function is a member of two classes. -/
theorem within_of_build {classes classes' : List ClassRecord}
    {functions functions' : List FunctionRecord} {h h' : Hierarchy}
    (hbuild : build classes functions = .ok h) (hbuild' : build classes' functions' = .ok h')
    (hclasses : classes ⊆ classes') (hfunctions : functions ⊆ functions')
    (hagree : RecordsAgree classes') (hlisted : ListedByOneClass classes') : h.Within h' := by
  obtain ⟨order, hb⟩ := exists_built hbuild
  obtain ⟨order', hb'⟩ := exists_built hbuild'
  have hw := ClassTable.within_ofRecords hclasses hagree
  have hless : ListedByOneClass classes := forall_pairs_of_subset hclasses hlisted
  refine ⟨partOf_of_build hbuild hbuild' hw.partOf hfunctions hless hlisted, ?_⟩
  rwa [hb.toClassTable_eq, hb'.toClassTable_eq]

/-! ## Main statement -/

/-- More records only add to the answers of a hierarchy, if the records of one class agree and no
function is a member of two classes.  A call that is dispatched is dispatched among more records
too, to no target less, and one that was uncertain stays so; a virtual destructor stays virtual; and
a function has all the overriders that it had, and a member pointer to it all the targets. -/
theorem answers_grow {classes classes' : List ClassRecord}
    {functions functions' : List FunctionRecord} {h h' : Hierarchy} (hclasses : classes ⊆ classes')
    (hfunctions : functions ⊆ functions') (hagree : RecordsAgree classes')
    (hlisted : ListedByOneClass classes') (hbuild : build classes functions = .ok h)
    (hbuild' : build classes' functions' = .ok h') :
    (∀ receiver method d, h.dispatch receiver method = .ok d →
        ∃ d', h'.dispatch receiver method = .ok d' ∧ (∀ f ∈ d.targets, f ∈ d'.targets) ∧
          (d.confidence = .may → d'.confidence = .may)) ∧
      (∀ key, h.hasVirtualDestructor key = true → h'.hasVirtualDestructor key = true) ∧
      (∀ f, ∀ g ∈ h.overriders f, g ∈ h'.overriders f) ∧
      ∀ f receiver, h.memberPointerTargets f receiver ⊆ h'.memberPointerTargets f receiver := by
  have hw := within_of_build hbuild hbuild' hclasses hfunctions hagree hlisted
  refine ⟨fun receiver method d hd => hw.dispatch hd, fun key hkey => ?_, fun f g hg => ?_,
    fun f receiver g hg => hw.memberPointerTargets hg⟩
  · simp only [hasVirtualDestructor, decide_eq_true_eq] at hkey ⊢
    exact hw.virtualDestructors key hkey
  · exact mem_overriders_iff.mpr (hw.transGen_overrides (mem_overriders_iff.mp hg))

/-- A shape with a virtual destructor, and a square that leaves destruction to it. -/
def shapeAndSquare : List ClassRecord :=
  [{ key := "Shape", methods := [⟨"area", "Shape::area"⟩],
     destructor := some ⟨"Shape::~Shape", true⟩ },
   { key := "Square", bases := [{ className := "Shape" }], methods := [⟨"area", "Square::area"⟩] }]

/-- The same classes and one more, which overrides both functions of the shape. -/
def shapesWithCircle : List ClassRecord :=
  { key := "Circle", bases := [{ className := "Shape" }], methods := [⟨"area", "Circle::area"⟩],
    destructor := some ⟨"Circle::~Circle", false⟩ } :: shapeAndSquare

/-- Only the area of the shape is declared virtual. -/
def virtualArea : List FunctionRecord := [{ key := "Shape::area", isVirtual := true }]

/-- What is known of shape and square is not lost among more shapes. -/
theorem shapesWithCircle_answers : shapeAndSquare ⊆ shapesWithCircle ∧
    RecordsAgree shapesWithCircle ∧ ListedByOneClass shapesWithCircle ∧
    ∃ h h', build shapeAndSquare virtualArea = .ok h ∧ build shapesWithCircle virtualArea = .ok h' ∧
      h.dispatch "Shape" "area" = .ok ⟨.ofList ["Shape::area", "Square::area"], .may⟩ ∧
      (∃ d', h'.dispatch "Shape" "area" = .ok d' ∧ "Square::area" ∈ d'.targets ∧
        d'.confidence = .may) ∧
      h'.hasVirtualDestructor "Square" = true ∧ "Square::area" ∈ h'.overriders "Shape::area" ∧
      "Square::area" ∈ h'.memberPointerTargets "Shape::area" (some "Square") := by
  have hclasses : shapeAndSquare ⊆ shapesWithCircle := List.subset_cons_self _ _
  have hagree : RecordsAgree shapesWithCircle := by decide
  have hlisted : ListedByOneClass shapesWithCircle := by decide
  obtain ⟨h, hbuild⟩ : ∃ h, build shapeAndSquare virtualArea = .ok h := ⟨_, by cbv⟩
  obtain ⟨h', hbuild'⟩ : ∃ h', build shapesWithCircle virtualArea = .ok h' := ⟨_, by cbv⟩
  have hanswers : (build shapeAndSquare virtualArea).toOption.map (fun h =>
      (h.dispatch "Shape" "area", h.hasVirtualDestructor "Square",
        (h.overriders "Shape::area").toList,
        h.memberPointerTargets "Shape::area" (some "Square"))) =
      some (.ok ⟨.ofList ["Shape::area", "Square::area"], .may⟩, true, ["Square::area"],
        ["Shape::area", "Square::area"]) := by cbv
  rw [hbuild] at hanswers
  simp only [Except.toOption, Option.map_some, Option.some.injEq, Prod.mk.injEq] at hanswers
  obtain ⟨hdispatched, hvirtual, hoverriders, hpointer⟩ := hanswers
  obtain ⟨dispatch_grows, destructors_grow, overriders_grow, pointers_grow⟩ :=
    answers_grow hclasses (List.Subset.refl _) hagree hlisted hbuild hbuild'
  obtain ⟨d', hd', hsub, hmay⟩ := dispatch_grows "Shape" "area" _ hdispatched
  refine ⟨hclasses, hagree, hlisted, h, h', hbuild, hbuild', hdispatched,
    ⟨d', hd', hsub "Square::area" ?_, hmay rfl⟩, destructors_grow "Square" hvirtual,
    overriders_grow "Shape::area" "Square::area" ?_, pointers_grow "Shape::area" (some "Square") ?_⟩
  · exact SortedSet.mem_ofList.mpr (by simp)
  · rw [SortedSet.mem_def, hoverriders]
    exact List.mem_singleton.mpr rfl
  · rw [hpointer]
    simp

end Hierarchy

end CallGraphs
