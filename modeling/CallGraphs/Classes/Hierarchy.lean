import CallGraphs.Classes.Lookup
import CallGraphs.Classes.Order
import CallGraphs.Facts.TranslationUnit

/-!
# Class hierarchies

A class table together with what follows from it and from the function
records: which functions are virtual, which function overrides which, and
which classes have a virtual destructor.

Overriding is inferred for each base on its own.  A method of a class
overrides, for each direct base, the nearest virtual declarations of its name
at or above that base, and is then virtual itself; so classes are looked at
after their bases.
-/

namespace CallGraphs

/-- One function overrides another. -/
structure Override where
  overrider : FunctionKey
  base : FunctionKey
deriving DecidableEq, Inhabited, Repr

namespace Override

/-- Overrides sort by the overriding function, then by the overridden one. -/
instance : Ord Override where
  compare := compareLex (compareOn Override.overrider) (compareOn Override.base)

instance : Std.TransOrd Override :=
  inferInstanceAs <| Std.TransCmp <|
    compareLex (compareOn Override.overrider) (compareOn Override.base)

end Override

/-- The classes of a program and the relations between their functions. -/
structure Hierarchy extends ClassTable where
  /-- The functions that are virtual. -/
  virtuals : SortedSet FunctionKey := ∅
  /-- The override relation. -/
  overrides : SortedSet Override := ∅
  /-- The classes whose destructor is virtual, declared so or inherited. -/
  virtualDestructors : SortedSet String := ∅
deriving DecidableEq, Inhabited

namespace Hierarchy

/-! ## Building -/

/-- Marks a function as virtual. -/
def markVirtual (h : Hierarchy) (function : FunctionKey) : Hierarchy :=
  { h with virtuals := h.virtuals.insert function }

/-- Records an override.  No function overrides itself. -/
def addOverride (h : Hierarchy) (o : Override) : Hierarchy :=
  if o.overrider = o.base then h else { h with overrides := h.overrides.insert o }

/-- The overrides that the function records declare. -/
def declaredOverrides (functions : List FunctionRecord) : List Override :=
  functions.flatMap fun f => f.overrides.map fun base => ⟨f.key, base⟩

/-- The functions that a record of their own or of their class calls virtual. -/
def declaredVirtuals (t : ClassTable) (functions : List FunctionRecord) : List FunctionKey :=
  (functions.filter (·.isVirtual)).map (·.key) ++
    ((t.records.filterMap (·.destructor)).filter (·.isVirtual)).map (·.function)

/-- The hierarchy before anything is inferred. -/
def declared (t : ClassTable) (functions : List FunctionRecord) : Hierarchy :=
  let h : Hierarchy := { toClassTable := t, virtuals := .ofList (declaredVirtuals t functions) }
  (declaredOverrides functions).foldl
    (fun h o => ((h.markVirtual o.overrider).markVirtual o.base).addOverride o) h

/-- The overrides by the declarations of one class, as far as virtual functions are known. -/
def overridesBy (h : Hierarchy) (c : ClassRecord) : List Override :=
  c.declarations.flatMap fun (name, function) =>
    c.baseNames.flatMap fun base =>
      ((h.nearest base name).filter (· ∈ h.virtuals)).map fun target => ⟨function, target⟩

/-- The class has a virtual destructor: its own one is, or that of a direct base. -/
def makesVirtualDestructor (h : Hierarchy) (c : ClassRecord) : Bool :=
  c.destructor.any (fun d => d.isVirtual || d.function ∈ h.virtuals) ||
    c.baseNames.any (· ∈ h.virtualDestructors)

/-- Records that a class has a virtual destructor. -/
def markDestructor (h : Hierarchy) (c : ClassRecord) : Hierarchy :=
  let h := { h with virtualDestructors := h.virtualDestructors.insert c.key }
  match c.destructor with
  | some d => h.markVirtual d.function
  | none => h

/-- Records what one class adds, once its bases have been looked at. -/
def inferClass (h : Hierarchy) (c : ClassRecord) : Hierarchy :=
  let found := h.overridesBy c
  let h := if h.makesVirtualDestructor c then h.markDestructor c else h
  found.foldl (fun h o => (h.markVirtual o.overrider).addOverride o) h

/-- `inferClass` for a class of the table. -/
def inferKey (h : Hierarchy) (key : String) : Hierarchy :=
  match h.class? key with
  | some c => h.inferClass c
  | none => h

/-- The hierarchy of class and function records; or a class on a cycle of bases. -/
def build (classes : List ClassRecord) (functions : List FunctionRecord) :
    Except String Hierarchy :=
  let t := ClassTable.ofRecords classes
  match t.basesFirst with
  | .error key => .error key
  | .ok order => .ok (order.foldl inferKey (declared t functions))

/-! ## Asking -/

/-- Whether a function is virtual. -/
def isVirtual (h : Hierarchy) (function : FunctionKey) : Bool := function ∈ h.virtuals

/-- Whether a class has a virtual destructor. -/
def hasVirtualDestructor (h : Hierarchy) (key : String) : Bool := key ∈ h.virtualDestructors

/-- The functions that override a function directly. -/
def directOverriders (h : Hierarchy) (function : FunctionKey) : List FunctionKey :=
  (h.overrides.toList.filter (·.base = function)).map (·.overrider)

/-- The functions that a function overrides directly. -/
def overridden (h : Hierarchy) (function : FunctionKey) : List FunctionKey :=
  (h.overrides.toList.filter (·.overrider = function)).map (·.base)

theorem directOverriders_subset (h : Hierarchy) (function : FunctionKey) :
    h.directOverriders function ⊆ h.overrides.toList.map (·.overrider) := by
  intro f hf
  obtain ⟨o, ho, rfl⟩ := List.mem_map.1 hf
  exact List.mem_map_of_mem (List.mem_filter.1 ho).1

/-- The functions that override a function, directly or through others. -/
def overriders (h : Hierarchy) (function : FunctionKey) : SortedSet FunctionKey :=
  stackSearch h.directOverriders (h.overrides.toList.map (·.overrider)) h.directOverriders_subset
    ([function], .empty)

end Hierarchy

end CallGraphs
