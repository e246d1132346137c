import CallGraphs.Classes.Lifetime
import CallGraphs.Proofs.Classes.Inheritance

/-!
# What runs implicitly

Destroying an object of a class without a destructor of its own destroys its
parts, and these may again be of such classes.  The walks over the parts do not
expand a class inside itself, so that they end where member classes refer to each
other in a circle.  This module says what they come to, without the walks.

* A chain of steps that comes back to a class goes around in a circle there, and
  what it leads to is also reached off that class, from one of its successors
  (`reflTransGen_off_or`).  So cutting a chain at a class that is being expanded
  loses nothing.
* `ClassTable.Expands` is what both walks have in common, class by class.  An
  expansion holds the functions of the classes that a chain of parts leads to
  (`ClassTable.Expands.mem_iff`), off the classes that are being expanded.
* Destruction runs the destructors of the classes that a chain of classes without
  destructors leads to, construction the first default constructors of those that
  a chain of classes without constructors leads to, each once.  For the parts of an
  object it is what destroying or constructing each of them runs
  (`ClassTable.lifetimeTargets_exact`).
-/

namespace CallGraphs

open Relation

/-! ## Chains off some places -/

section Chains

variable {α : Type} {r : α → α → Prop} {avoid : List α}

/-- A step that does not leave from one of these places. -/
def Off (avoid : List α) (r : α → α → Prop) (x y : α) : Prop := x ∉ avoid ∧ r x y

theorem off_nil : Off [] r = r := by
  funext x y
  simp [Off]

theorem Off.weaken {k x y : α} (h : Off (k :: avoid) r x y) : Off avoid r x y :=
  ⟨fun hx => h.1 (List.mem_cons_of_mem k hx), h.2⟩

/-- What a chain leads to is reached off a further place too, from where the chain starts or from
where a step leads from that place: the chain leaves the place for the last time, or never. -/
theorem reflTransGen_off_or (k : α) {x y : α} (h : ReflTransGen (Off avoid r) x y) :
    ReflTransGen (Off (k :: avoid) r) x y ∨ ∃ z, r k z ∧ ReflTransGen (Off (k :: avoid) r) z y := by
  induction h using ReflTransGen.head_induction_on with
  | refl => exact Or.inl .refl
  | @head x z hstep _ ih =>
      rcases ih with hrest | hlater
      · by_cases hx : x = k
        · exact Or.inr ⟨z, hx ▸ hstep.2, hrest⟩
        · refine Or.inl (.head ⟨?_, hstep.2⟩ hrest)
          intro hmem
          exact (List.mem_cons.mp hmem).elim hx hstep.1
      · exact Or.inr hlater

end Chains

theorem nodup_eraseDups {α : Type} [DecidableEq α] : ∀ l : List α, l.eraseDups.Nodup
  | [] => List.nodup_nil
  | a :: l => by
      rw [List.eraseDups_cons, List.nodup_cons]
      exact ⟨by simp, nodup_eraseDups _⟩
termination_by l => l.length
decreasing_by exact Nat.lt_succ_of_le (List.length_filter_le _ _)

/-! ## Parts of objects -/

/-- An object of a class has a part of another one: a field, or the subobject of a direct base. -/
def ClassRecord.HasPart (c : ClassRecord) (part : String) : Prop :=
  part ∈ c.memberClasses ∨ part ∈ c.baseNames

namespace ClassTable

/-- `ClassRecord.HasPart` for a class of the table. -/
def HasPart (t : ClassTable) (key part : String) : Prop :=
  ∃ c, t.class? key = some c ∧ c.HasPart part

/-- What happens to an object of a class is left to its parts, if its record is of this kind. -/
def LeavesTo (t : ClassTable) (implicit : ClassRecord → Prop) (key part : String) : Prop :=
  ∃ c, t.class? key = some c ∧ implicit c ∧ c.HasPart part

/-- A class that declares no destructor leaves destruction to its parts. -/
def DestroysPart (t : ClassTable) : String → String → Prop :=
  t.LeavesTo fun c => c.destructor = none

/-- A class that declares no constructor at all leaves construction to its parts. -/
def ConstructsPart (t : ClassTable) : String → String → Prop :=
  t.LeavesTo fun c => c.constructors = []

/-- A class declares this destructor. -/
def DeclaresDestructor (t : ClassTable) (key : String) (f : FunctionKey) : Prop :=
  ∃ c, t.class? key = some c ∧ c.destructor.map (·.function) = some f

/-- This is the first default constructor that a class declares. -/
def DeclaresDefault (t : ClassTable) (key : String) (f : FunctionKey) : Prop :=
  ∃ c, t.class? key = some c ∧ c.defaultConstructor? = some f

theorem LeavesTo.hasPart {t : ClassTable} {implicit : ClassRecord → Prop} {key part : String}
    (h : t.LeavesTo implicit key part) : t.HasPart key part := by
  obtain ⟨c, hc, -, hpart⟩ := h
  exact ⟨c, hc, hpart⟩

/-! ## Expansions -/

/-- An expansion of classes inside others that are being expanded: a class answers with its own
function; or it leaves the matter to its parts, unless it is being expanded itself. -/
def Expands (t : ClassTable) (own : ClassRecord → Option FunctionKey)
    (implicit : ClassRecord → Prop) (expand : List String → String → List FunctionKey) : Prop :=
  ∀ expanding key f, f ∈ expand expanding key ↔ ∃ c, t.class? key = some c ∧
    (own c = some f ∨ implicit c ∧ key ∉ expanding ∧
      ∃ part, c.HasPart part ∧ f ∈ expand (key :: expanding) part)

namespace Expands

variable {t : ClassTable} {own : ClassRecord → Option FunctionKey} {implicit : ClassRecord → Prop}
  {expand : List String → String → List FunctionKey} (he : t.Expands own implicit expand)
include he

/-- An expansion holds the functions of the classes that a chain leads to, if no step of it leaves
from a class that is being expanded. -/
theorem mem_iff {expanding : List String} {key : String} {f : FunctionKey} :
    f ∈ expand expanding key ↔ ∃ last, ReflTransGen (Off expanding (t.LeavesTo implicit)) key last ∧
      ∃ c, t.class? last = some c ∧ own c = some f := by
  -- each class that is expanded leaves fewer to expand
  induction hn : unseen t.keys expanding using Nat.strongRecOn
    generalizing expanding key with
  | _ n ih =>
    rw [he expanding key f]
    constructor
    · rintro ⟨c, hc, hown | ⟨himplicit, hnew, part, hpart, hf⟩⟩
      · exact ⟨key, .refl, c, hc, hown⟩
      · have hless := unseen_cons_lt (mem_keys_of_class? hc) hnew
        obtain ⟨last, hchain, hlast⟩ := (ih _ (hn ▸ hless) rfl).mp hf
        exact ⟨last, .head ⟨hnew, c, hc, himplicit, hpart⟩
          (ReflTransGen.mono (fun _ _ => Off.weaken) _ _ hchain), hlast⟩
    · rintro ⟨last, hchain, hlast⟩
      rcases hchain.cases_head with rfl | ⟨next, ⟨hnew, hstep⟩, hrest⟩
      · obtain ⟨c, hc, hown⟩ := hlast
        exact ⟨c, hc, Or.inl hown⟩
      · -- behind its last step from this class, the chain is one inside the class
        obtain ⟨part, ⟨c, hc, himplicit, hpart⟩, hinside⟩ : ∃ part, t.LeavesTo implicit key part ∧
            ReflTransGen (Off (key :: expanding) (t.LeavesTo implicit)) part last := by
          rcases reflTransGen_off_or key hrest with hinside | ⟨part, hpart, hinside⟩
          · exact ⟨next, hstep, hinside⟩
          · exact ⟨part, hpart, hinside⟩
        have hless := unseen_cons_lt (mem_keys_of_class? hc) hnew
        exact ⟨c, hc, Or.inr ⟨himplicit, hnew, part, hpart,
          (ih _ (hn ▸ hless) rfl).mpr ⟨last, hinside, hlast⟩⟩⟩

/-- `mem_iff` where no class is being expanded. -/
theorem mem_nil_iff {key : String} {f : FunctionKey} : f ∈ expand [] key ↔
    ∃ last, ReflTransGen (t.LeavesTo implicit) key last ∧
      ∃ c, t.class? last = some c ∧ own c = some f := by
  rw [he.mem_iff, off_nil]

/-- It makes no difference for all parts of a class together whether the class is being expanded. -/
theorem exists_part_iff {key : String} {f : FunctionKey} :
    (∃ part, t.HasPart key part ∧ f ∈ expand [key] part) ↔
      ∃ part, t.HasPart key part ∧ f ∈ expand [] part := by
  constructor
  · rintro ⟨part, hpart, hf⟩
    obtain ⟨last, hchain, hlast⟩ := he.mem_iff.mp hf
    exact ⟨part, hpart, he.mem_iff.mpr ⟨last,
      ReflTransGen.mono (fun _ _ => Off.weaken) _ _ hchain, hlast⟩⟩
  · rintro ⟨part, hpart, hf⟩
    obtain ⟨last, hchain, hlast⟩ := he.mem_iff.mp hf
    rcases reflTransGen_off_or key hchain with hinside | ⟨other, hother, hinside⟩
    · exact ⟨part, hpart, he.mem_iff.mpr ⟨last, hinside, hlast⟩⟩
    · exact ⟨other, hother.hasPart, he.mem_iff.mpr ⟨last, hinside, hlast⟩⟩

/-- What the parts of a class come to, taken in any order, inside the class. -/
theorem ofParts {parts : ClassRecord → List String} {key : String} {targets : List FunctionKey}
    (hparts : ∀ c part, part ∈ parts c ↔ c.HasPart part)
    (htargets : targets = match t.class? key with
      | some c => ((parts c).flatMap (expand [key])).eraseDups
      | none => []) :
    targets.Nodup ∧ ∀ f, f ∈ targets ↔ ∃ part, t.HasPart key part ∧ f ∈ expand [] part := by
  subst htargets
  cases hc : t.class? key with
  | none => simp [HasPart, hc]
  | some c =>
      refine ⟨nodup_eraseDups _, fun f => ?_⟩
      rw [← he.exists_part_iff]
      simp [HasPart, hc, hparts]

end Expands

/-! ## Destruction and construction -/

section Walks

variable {t : ClassTable} {key : String} {c : ClassRecord}

theorem destroyedWithin_eq (hc : t.class? key = some c) (expanding : List String) :
    t.destroyedWithin expanding key =
      match c.destructor with
      | some d => [d.function]
      | none =>
        if key ∈ expanding then []
        else (partsToDestroy c).flatMap (t.destroyedWithin (key :: expanding)) := by
  rw [destroyedWithin]
  split
  · next hnone => exact absurd (hc.symm.trans hnone) (by simp)
  · next c' hc' =>
    obtain rfl := Option.some.inj (hc'.symm.trans hc)
    rfl

theorem destroyedWithin_of_unknown (hc : t.class? key = none) (expanding : List String) :
    t.destroyedWithin expanding key = [] := by
  rw [destroyedWithin]
  split
  · rfl
  · next hsome => exact absurd (hc.symm.trans hsome) (by simp)

theorem constructedWithin_eq (hc : t.class? key = some c) (expanding : List String) :
    t.constructedWithin expanding key =
      match c.defaultConstructor? with
      | some function => [function]
      | none =>
        if !c.constructors.isEmpty then []
        else if key ∈ expanding then []
        else (partsToConstruct c).flatMap (t.constructedWithin (key :: expanding)) := by
  rw [constructedWithin]
  split
  · next hnone => exact absurd (hc.symm.trans hnone) (by simp)
  · next c' hc' =>
    obtain rfl := Option.some.inj (hc'.symm.trans hc)
    rfl

theorem constructedWithin_of_unknown (hc : t.class? key = none) (expanding : List String) :
    t.constructedWithin expanding key = [] := by
  rw [constructedWithin]
  split
  · rfl
  · next hsome => exact absurd (hc.symm.trans hsome) (by simp)

theorem mem_partsToDestroy {part : String} : part ∈ partsToDestroy c ↔ c.HasPart part := by
  simp [partsToDestroy, ClassRecord.HasPart]

theorem mem_partsToConstruct {part : String} : part ∈ partsToConstruct c ↔ c.HasPart part := by
  simp [partsToConstruct, ClassRecord.HasPart, or_comm]

end Walks

variable (t : ClassTable)

theorem expands_destroyedWithin :
    t.Expands (fun c => c.destructor.map (·.function)) (fun c => c.destructor = none)
      t.destroyedWithin := by
  intro expanding key f
  cases hc : t.class? key with
  | none => simp [destroyedWithin_of_unknown hc]
  | some c =>
      rw [destroyedWithin_eq hc]
      cases hd : c.destructor with
      | some d => simp [hd, eq_comm]
      | none =>
          by_cases hin : key ∈ expanding
          · simp [hd, hin]
          · simp [hd, hin, mem_partsToDestroy]

theorem expands_constructedWithin :
    t.Expands (·.defaultConstructor?) (fun c => c.constructors = []) t.constructedWithin := by
  intro expanding key f
  cases hc : t.class? key with
  | none => simp [constructedWithin_of_unknown hc]
  | some c =>
      rw [constructedWithin_eq hc]
      cases hdefault : c.defaultConstructor? with
      | some function =>
          -- a class with a default constructor declares constructors
          have hdeclares : c.constructors ≠ [] := by
            intro hnone
            simp [ClassRecord.defaultConstructor?, hnone] at hdefault
          simp [hdefault, hdeclares, eq_comm]
      | none =>
          by_cases hnone : c.constructors = []
          · by_cases hin : key ∈ expanding
            · simp [hdefault, hnone, hin]
            · simp [hdefault, hnone, hin, mem_partsToConstruct]
          · simp [hdefault, hnone]

variable {t}

theorem mem_destroyTargets_iff {key : String} {f : FunctionKey} : f ∈ t.destroyTargets key ↔
    ∃ last, ReflTransGen t.DestroysPart key last ∧ t.DeclaresDestructor last f := by
  rw [destroyTargets, List.mem_eraseDups]
  exact t.expands_destroyedWithin.mem_nil_iff

theorem mem_constructTargets_iff {key : String} {f : FunctionKey} : f ∈ t.constructTargets key ↔
    ∃ last, ReflTransGen t.ConstructsPart key last ∧ t.DeclaresDefault last f := by
  rw [constructTargets, List.mem_eraseDups]
  exact t.expands_constructedWithin.mem_nil_iff

theorem partDestroyTargets_exact (key : String) : (t.partDestroyTargets key).Nodup ∧
    ∀ f, f ∈ t.partDestroyTargets key ↔ ∃ part, t.HasPart key part ∧ f ∈ t.destroyTargets part := by
  simp only [destroyTargets, List.mem_eraseDups]
  exact t.expands_destroyedWithin.ofParts (fun _ _ => mem_partsToDestroy) rfl

theorem partConstructTargets_exact (key : String) : (t.partConstructTargets key).Nodup ∧
    ∀ f, f ∈ t.partConstructTargets key ↔
      ∃ part, t.HasPart key part ∧ f ∈ t.constructTargets part := by
  simp only [constructTargets, List.mem_eraseDups]
  exact t.expands_constructedWithin.ofParts (fun _ _ => mem_partsToConstruct) rfl

/-! ## Main statement -/

/-- Destroying an object runs, each once, exactly the destructors of the classes to which a chain of
parts leads through classes without destructors; constructing it by default runs the first default
constructors of those to which a chain leads through classes without constructors.  The parts of an
object alone run what destroying or constructing each of them runs. -/
theorem lifetimeTargets_exact (t : ClassTable) (key : String) :
    ((t.destroyTargets key).Nodup ∧ ∀ f, f ∈ t.destroyTargets key ↔
        ∃ last, ReflTransGen t.DestroysPart key last ∧ t.DeclaresDestructor last f) ∧
      ((t.constructTargets key).Nodup ∧ ∀ f, f ∈ t.constructTargets key ↔
        ∃ last, ReflTransGen t.ConstructsPart key last ∧ t.DeclaresDefault last f) ∧
      ((t.partDestroyTargets key).Nodup ∧ ∀ f, f ∈ t.partDestroyTargets key ↔
        ∃ part, t.HasPart key part ∧ f ∈ t.destroyTargets part) ∧
      ((t.partConstructTargets key).Nodup ∧ ∀ f, f ∈ t.partConstructTargets key ↔
        ∃ part, t.HasPart key part ∧ f ∈ t.constructTargets part) :=
  ⟨⟨nodup_eraseDups _, fun _ => mem_destroyTargets_iff⟩,
    ⟨nodup_eraseDups _, fun _ => mem_constructTargets_iff⟩,
    partDestroyTargets_exact key, partConstructTargets_exact key⟩

/-- Two classes that have each other for members; what the second one inherits runs whichever of
them is destroyed. -/
example :
    let t := ofRecords
      [{ key := "List", fields := [{ name := "head", className := some "Node" }] },
        { key := "Node", bases := [{ className := "Item" }],
          fields := [{ name := "rest", className := some "List" },
            { name := "label", className := some "Text" }] },
        { key := "Item", destructor := some ⟨"Item::~Item", true⟩ },
        { key := "Text", destructor := some ⟨"Text::~Text", false⟩ }]
    t.destroyTargets "List" = ["Text::~Text", "Item::~Item"] ∧
      t.partDestroyTargets "Node" = ["Text::~Text", "Item::~Item"] := by
  cbv

end ClassTable

end CallGraphs
