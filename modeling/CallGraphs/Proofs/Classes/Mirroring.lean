import CallGraphs.Proofs.Classes.Lifetimes
import CallGraphs.Proofs.Classes.Overriding

/-!
# Destruction mirrors construction

Where every class declares both a destructor and a default constructor, or leaves
both to its parts, an object is taken apart by the classes that put it together.

* The parts of an object are destroyed in the opposite order of their construction
  (`ClassTable.partsToDestroy_eq`), at every level, and both expansions stop at the
  same classes.  So the classes whose destructors run are those whose constructors
  run, read backwards (`ClassTable.map_owner?_destroyedWithin`).
* A function that comes up again is left out, by both.  That keeps the classes but
  not their order: the first mention of a class backwards is its last one forwards.
  Where no class comes up twice nothing is left out, and the order is kept too
  (`ClassTable.destruction_mirrors_construction`).
-/

namespace CallGraphs

/-! ## Lists that mirror each other -/

section Mirrors

variable {α β γ : Type}

theorem map_flatMap_reverse {f g : β → List γ} {name : γ → α} (parts : List β)
    (h : ∀ part ∈ parts, (f part).map name = ((g part).map name).reverse) :
    (parts.reverse.flatMap f).map name = ((parts.flatMap g).map name).reverse := by
  rw [List.map_flatMap, List.map_flatMap, List.reverse_flatMap]
  refine List.flatMap_congr fun part hpart => ?_
  exact h part (List.mem_reverse.mp hpart)

theorem eraseDups_of_nodup [DecidableEq α] {l : List α} (h : l.Nodup) : l.eraseDups = l := by
  induction l with
  | nil => rfl
  | cons a l ih =>
      obtain ⟨hnew, hrest⟩ := List.nodup_cons.mp h
      have hkept : l.filter (fun b => !b == a) = l := by
        refine List.filter_eq_self.mpr fun b hb => ?_
        have hne : b ≠ a := fun he => hnew (he ▸ hb)
        simp [hne]
      rw [List.eraseDups_cons, hkept, ih hrest]

variable [DecidableEq γ] {l l' : List γ} {name : γ → α}
  (h : l.map name = (l'.map name).reverse)
include h

/-- Lists that mirror each other under some name have the same names. -/
theorem mem_map_eraseDups_iff (a : α) : a ∈ l.eraseDups.map name ↔ a ∈ l'.eraseDups.map name := by
  have hmem : a ∈ l.map name ↔ a ∈ l'.map name := by rw [h, List.mem_reverse]
  simpa only [List.mem_map, List.mem_eraseDups] using hmem

/-- They do so without their repetitions too, if no name is there twice. -/
theorem map_eraseDups_eq (hdistinct : (l.map name).Nodup) :
    l.eraseDups.map name = (l'.eraseDups.map name).reverse := by
  have hdistinct' : (l'.map name).Nodup := List.nodup_reverse.mp (h ▸ hdistinct)
  rw [eraseDups_of_nodup hdistinct.of_map, eraseDups_of_nodup hdistinct'.of_map, h]

end Mirrors

/-! ## Classes that do both or neither -/

/-- A class declares both a destructor and a default constructor, or neither a destructor nor any
constructor. -/
def ClassRecord.Paired (c : ClassRecord) : Prop :=
  (c.destructor.isSome ∧ c.defaultConstructor?.isSome) ∨ (c.destructor = none ∧ c.constructors = [])

instance (c : ClassRecord) : Decidable c.Paired :=
  inferInstanceAs (Decidable ((c.destructor.isSome ∧ c.defaultConstructor?.isSome) ∨
    (c.destructor = none ∧ c.constructors = [])))

namespace ClassTable

theorem partsToDestroy_eq (c : ClassRecord) : partsToDestroy c = (partsToConstruct c).reverse :=
  List.reverse_append.symm

/-- The destructors that run after the body of the destructor of a class, as often as the expansion
comes to them. -/
def destroyedInParts (t : ClassTable) (key : String) : List FunctionKey :=
  match t.class? key with
  | some c => (partsToDestroy c).flatMap (t.destroyedWithin [key])
  | none => []

/-- The constructors that run before the body of a constructor of a class, as often as the expansion
comes to them. -/
def constructedInParts (t : ClassTable) (key : String) : List FunctionKey :=
  match t.class? key with
  | some c => (partsToConstruct c).flatMap (t.constructedWithin [key])
  | none => []

theorem partDestroyTargets_eq (t : ClassTable) (key : String) :
    t.partDestroyTargets key = (t.destroyedInParts key).eraseDups := by
  cases hc : t.class? key with
  | none => simp [partDestroyTargets, destroyedInParts, hc]
  | some c => simp [partDestroyTargets, destroyedInParts, hc]

theorem partConstructTargets_eq (t : ClassTable) (key : String) :
    t.partConstructTargets key = (t.constructedInParts key).eraseDups := by
  cases hc : t.class? key with
  | none => simp [partConstructTargets, constructedInParts, hc]
  | some c => simp [partConstructTargets, constructedInParts, hc]

theorem defaultConstructor_mem_members {c : ClassRecord} {f : FunctionKey}
    (h : c.defaultConstructor? = some f) : f ∈ c.members := by
  obtain ⟨d, hd, rfl⟩ := Option.map_eq_some_iff.mp h
  have hmem : d.function ∈ c.constructors.map (·.function) :=
    List.mem_map_of_mem (List.mem_of_find?_eq_some hd)
  exact List.mem_append_left _ (List.mem_append_right _ hmem)

theorem destructor_mem_members {c : ClassRecord} {d : DestructorDecl} (h : c.destructor = some d) :
    d.function ∈ c.members := by
  simp [ClassRecord.members, h]

section

variable {t : ClassTable} (hpaired : ∀ c ∈ t.records, c.Paired) (hown : t.OwnedOnce)
include hpaired hown

/-- The classes whose destructors run are those whose constructors run, read backwards. -/
theorem map_owner?_destroyedWithin (expanding : List String) (key : String) :
    (t.destroyedWithin expanding key).map t.owner? =
      ((t.constructedWithin expanding key).map t.owner?).reverse := by
  -- each class that is expanded leaves fewer to expand
  induction hn : unseen t.keys expanding using Nat.strongRecOn generalizing expanding key with
  | _ n ih =>
    cases hc : t.class? key with
    | none =>
        rw [destroyedWithin_of_unknown hc, constructedWithin_of_unknown hc]
        rfl
    | some c =>
        obtain ⟨hmem, -⟩ := class?_eq_some hc
        rw [destroyedWithin_eq hc, constructedWithin_eq hc]
        rcases hpaired c hmem with ⟨hdtor, hctor⟩ | ⟨hdtor, hctor⟩
        · obtain ⟨d, hd⟩ := Option.isSome_iff_exists.mp hdtor
          obtain ⟨f, hf⟩ := Option.isSome_iff_exists.mp hctor
          simp only [hd, hf, List.map_singleton, List.reverse_singleton,
            hown.owner? hmem (destructor_mem_members hd),
            hown.owner? hmem (defaultConstructor_mem_members hf)]
        · have hnone : c.defaultConstructor? = none := by
            simp [ClassRecord.defaultConstructor?, hctor]
          by_cases hin : key ∈ expanding
          · simp [hdtor, hctor, hnone, hin]
          · simp only [hdtor, hctor, hnone, hin, if_false, List.isEmpty_nil, Bool.not_true,
              Bool.false_eq_true, partsToDestroy_eq]
            refine map_flatMap_reverse _ fun part _ => ?_
            exact ih _ (hn ▸ unseen_cons_lt (mem_keys_of_class? hc) hin) _ _ rfl

/-- The same for the parts of an object. -/
theorem map_owner?_destroyedInParts (key : String) :
    (t.destroyedInParts key).map t.owner? =
      ((t.constructedInParts key).map t.owner?).reverse := by
  rw [destroyedInParts, constructedInParts]
  cases t.class? key with
  | none => rfl
  | some c =>
      show ((partsToDestroy c).flatMap _).map _ = _
      rw [partsToDestroy_eq]
      exact map_flatMap_reverse _ fun part _ => map_owner?_destroyedWithin hpaired hown _ part

/-! ## Main statement -/

/-- Where every class declares both a destructor and a default constructor or none of either, the
classes whose destructors run are those whose default constructors run; and they run in exactly the
opposite order, if the expansion comes to no class twice.  So it is for an object and for its parts
alone. -/
theorem destruction_mirrors_construction (key : String) :
    ((∀ owner, owner ∈ (t.destroyTargets key).map t.owner? ↔
        owner ∈ (t.constructTargets key).map t.owner?) ∧
      (((t.destroyedWithin [] key).map t.owner?).Nodup →
        (t.destroyTargets key).map t.owner? = ((t.constructTargets key).map t.owner?).reverse)) ∧
    (∀ owner, owner ∈ (t.partDestroyTargets key).map t.owner? ↔
        owner ∈ (t.partConstructTargets key).map t.owner?) ∧
      (((t.destroyedInParts key).map t.owner?).Nodup →
        (t.partDestroyTargets key).map t.owner? =
          ((t.partConstructTargets key).map t.owner?).reverse) := by
  have hwhole := map_owner?_destroyedWithin hpaired hown [] key
  have hparts := map_owner?_destroyedInParts hpaired hown key
  rw [partDestroyTargets_eq, partConstructTargets_eq]
  exact ⟨⟨mem_map_eraseDups_iff hwhole, map_eraseDups_eq hwhole⟩,
    mem_map_eraseDups_iff hparts, map_eraseDups_eq hparts⟩

end

/-- A window with a base, a text and a frame, which knows the window that it is in. -/
def windows : ClassTable := ofRecords
  [{ key := "Window", bases := [{ className := "Widget" }],
      fields := [{ name := "title", className := some "Text" },
        { name := "frame", className := some "Frame" }] },
    { key := "Frame", fields := [{ name := "inside", className := some "Window" },
        { name := "border", className := some "Border" }] },
    { key := "Widget", constructors := [⟨"Widget::Widget", true⟩],
      destructor := some ⟨"Widget::~Widget", true⟩ },
    { key := "Text", constructors := [⟨"Text::Text(char)", false⟩, ⟨"Text::Text", true⟩],
      destructor := some ⟨"Text::~Text", false⟩ },
    { key := "Border", constructors := [⟨"Border::Border", true⟩],
      destructor := some ⟨"Border::~Border", false⟩ }]

/-- The window comes apart from its border to its base. -/
theorem windows_mirrored : (∀ c ∈ windows.records, c.Paired) ∧ windows.OwnedOnce ∧
    windows.destroyTargets "Window" = ["Border::~Border", "Text::~Text", "Widget::~Widget"] ∧
    (windows.destroyTargets "Window").map windows.owner? =
      ((windows.constructTargets "Window").map windows.owner?).reverse ∧
    (windows.partDestroyTargets "Frame").map windows.owner? =
      ((windows.partConstructTargets "Frame").map windows.owner?).reverse := by
  have hpaired : ∀ c ∈ windows.records, c.Paired := by decide
  have hown : windows.OwnedOnce := by decide
  have hwhole : (windows.destroyedWithin [] "Window").map windows.owner? =
      [some "Border", some "Text", some "Widget"] := by cbv
  have hparts : (windows.destroyedInParts "Frame").map windows.owner? =
      [some "Border", some "Text", some "Widget"] := by cbv
  exact ⟨hpaired, hown, by cbv,
    (destruction_mirrors_construction hpaired hown "Window").1.2 (by rw [hwhole]; decide),
    (destruction_mirrors_construction hpaired hown "Frame").2.2 (by rw [hparts]; decide)⟩

end ClassTable

end CallGraphs
