import CallGraphs.Classes.Hierarchy
import CallGraphs.Graph.Edge

/-!
# Dispatch

Which functions a call of a method may run, given the static class of the
object.  The candidates are the nearest declarations at or above that class
and, for each that is virtual, the overriders that belong to the class or to
one derived from it.  Overriding is recorded for each base on its own, so an
overrider that is reached only through another base is no candidate.
-/

namespace CallGraphs

/-- The candidates of a call. -/
structure Dispatch where
  targets : SortedSet FunctionKey
  confidence : Confidence
deriving DecidableEq, Inhabited

/-- Why a call has no candidates. -/
inductive DispatchFailure where
  | unknownClass
  | unknownMethod
deriving DecidableEq, Inhabited, Repr

namespace Hierarchy

/-- Whether a function belongs to one of these classes. -/
def ownedWithin (h : Hierarchy) (classes : List String) (function : FunctionKey) : Bool :=
  (h.owner? function).any (· ∈ classes)

/-- A declaration and, if it is virtual, its overriders within these classes. -/
def candidatesFor (h : Hierarchy) (classes : List String) (function : FunctionKey) :
    List FunctionKey :=
  function ::
    if h.isVirtual function then (h.overriders function).toList.filter (h.ownedWithin classes)
    else []

/-- The candidates of a method call on an object of a static class. -/
def dispatch (h : Hierarchy) (receiver method : String) : Except DispatchFailure Dispatch :=
  if !h.contains receiver then .error .unknownClass
  else
    match h.nearest receiver method with
    | [] => .error .unknownMethod
    | declarations =>
      let targets : SortedSet FunctionKey :=
        .ofList (declarations.flatMap (h.candidatesFor (h.derivedClosure receiver)))
      .ok { targets, confidence := if targets.size = 1 then .definite else .may }

/--
The functions that a member pointer to a function may run: the function, and
its overriders if it is virtual.  If the static class of the object is known,
only overriders of that class and of classes derived from it count.
-/
def memberPointerTargets (h : Hierarchy) (function : FunctionKey) (receiver : Option String) :
    List FunctionKey :=
  function ::
    if h.isVirtual function then
      match receiver with
      | some key => (h.overriders function).toList.filter (h.ownedWithin (h.derivedClosure key))
      | none => (h.overriders function).toList
    else []

end Hierarchy

end CallGraphs
