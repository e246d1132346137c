import CallGraphs.Classes.Table
import CallGraphs.Data.Counting

/-!
# Constructors and destructors that run implicitly

Destroying an object runs the destructor that its class declares.  A class
that declares none has an implicit destructor, which is no function of its
own but stands for what it runs: the destructors of the members, last member
first, and then those of the bases, last base first.  Default construction is
the same in the opposite order, with the difference that a class which
declares constructors but no default one has no implicit constructor.

Member classes may refer to each other in a circle; a class that is being
expanded is not expanded again inside itself.
-/

namespace CallGraphs

namespace ClassTable

/-- The classes of the parts of an object, in the order in which they are destroyed. -/
def partsToDestroy (c : ClassRecord) : List String :=
  c.memberClasses.reverse ++ c.baseNames.reverse

/-- The classes of the parts of an object, in the order in which they are constructed. -/
def partsToConstruct (c : ClassRecord) : List String := c.baseNames ++ c.memberClasses

theorem mem_keys_of_class? {t : ClassTable} {key : String} {c : ClassRecord}
    (h : t.class? key = some c) : key ∈ t.keys := by
  by_cases hk : key ∈ t.keys
  · exact hk
  · simp [class?_eq_none_iff.2 hk] at h

/-- The destructors that destroying an object of a class runs, inside the classes being expanded. -/
def destroyedWithin (t : ClassTable) (expanding : List String) (key : String) :
    List FunctionKey :=
  match _h : t.class? key with
  | none => []
  | some c =>
    match c.destructor with
    | some d => [d.function]
    | none =>
      if key ∈ expanding then []
      else (partsToDestroy c).flatMap fun part => t.destroyedWithin (key :: expanding) part
termination_by unseen t.keys expanding
decreasing_by exact unseen_cons_lt (mem_keys_of_class? _h) (by assumption)

/-- The constructors that default construction runs, inside the classes being expanded. -/
def constructedWithin (t : ClassTable) (expanding : List String) (key : String) :
    List FunctionKey :=
  match _h : t.class? key with
  | none => []
  | some c =>
    match c.defaultConstructor? with
    | some function => [function]
    | none =>
      if !c.constructors.isEmpty then []
      else if key ∈ expanding then []
      else (partsToConstruct c).flatMap fun part => t.constructedWithin (key :: expanding) part
termination_by unseen t.keys expanding
decreasing_by exact unseen_cons_lt (mem_keys_of_class? _h) (by assumption)

/-- The destructors that destroying an object of a class runs, each once. -/
def destroyTargets (t : ClassTable) (key : String) : List FunctionKey :=
  (t.destroyedWithin [] key).eraseDups

/-- The constructors that default construction of an object of a class runs, each once. -/
def constructTargets (t : ClassTable) (key : String) : List FunctionKey :=
  (t.constructedWithin [] key).eraseDups

/-- The destructors that run after the body of the destructor of a class. -/
def partDestroyTargets (t : ClassTable) (key : String) : List FunctionKey :=
  match t.class? key with
  | some c => ((partsToDestroy c).flatMap (t.destroyedWithin [key])).eraseDups
  | none => []

/-- The constructors that run before the body of a constructor of a class. -/
def partConstructTargets (t : ClassTable) (key : String) : List FunctionKey :=
  match t.class? key with
  | some c => ((partsToConstruct c).flatMap (t.constructedWithin [key])).eraseDups
  | none => []

end ClassTable

end CallGraphs
