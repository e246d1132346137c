import CallGraphs.Classes.Table
import CallGraphs.Data.Worklist

/-!
# Looking up methods and derived classes

`ClassTable.nearest` looks for the declarations of a method at or above a
class.  A destructor takes part under the name `~`, whatever it is called.
-/

namespace CallGraphs

/-- The name under which destructors are looked up. -/
def destructorName : String := "~"

namespace ClassRecord

/-- The function that a class declares under a name. -/
def declares? (c : ClassRecord) (name : String) : Option FunctionKey :=
  if name = destructorName then c.destructor.map (·.function) else c.method? name

/-- The functions that a class declares, each with its name; the destructor comes last. -/
def declarations (c : ClassRecord) : List (String × FunctionKey) :=
  c.methods.map (fun m => (m.name, m.function)) ++
    (c.destructor.map fun d => (destructorName, d.function)).toList

end ClassRecord

namespace ClassTable

/-- The function that a class of the table declares under a name. -/
def declaredIn? (t : ClassTable) (key name : String) : Option FunctionKey :=
  (t.class? key).bind (·.declares? name)

/--
Walks up from the classes on a stack.  A path stops at the first class that
declares the name, and a class is looked at once.
-/
def nearestFrom (t : ClassTable) (name : String) (stack visited : List String)
    (found : List FunctionKey) : List FunctionKey :=
  match stack with
  | [] => found
  | key :: rest =>
    if key ∈ visited then t.nearestFrom name rest visited found
    else
      match t.declaredIn? key name with
      | some function =>
        t.nearestFrom name rest (key :: visited)
          (if function ∈ found then found else found ++ [function])
      | none => t.nearestFrom name (t.basesOf key ++ rest) (key :: visited) found
termination_by (unseen t.keys visited, stack.length)
decreasing_by
  · exact Prod.Lex.right _ (by simp)
  · have h : unseen t.keys (key :: visited) ≤ unseen t.keys visited :=
      unseen_le_of_subset (by simp)
    rcases Nat.lt_or_eq_of_le h with h | h
    · exact Prod.Lex.left _ _ h
    · rw [h]
      exact Prod.Lex.right _ (by simp)
  · by_cases hk : key ∈ t.keys
    · exact Prod.Lex.left _ _ (unseen_cons_lt hk (by assumption))
    · have h : unseen t.keys (key :: visited) ≤ unseen t.keys visited :=
        unseen_le_of_subset (by simp)
      rw [basesOf_of_not_mem hk]
      rcases Nat.lt_or_eq_of_le h with h | h
      · exact Prod.Lex.left _ _ h
      · rw [h]
        exact Prod.Lex.right _ (by simp)

/--
The nearest declarations of a name at or above a class, in the order in which
a walk over the bases meets them.  More than one means that the name is
ambiguous.
-/
def nearest (t : ClassTable) (key name : String) : List FunctionKey :=
  t.nearestFrom name [key] [] []

/-- A class and all classes derived from it, breadth first; nothing if it is unknown. -/
def derivedClosure (t : ClassTable) (key : String) : List String :=
  if t.contains key then queueSearch t.derivedFrom t.keys t.derivedFrom_subset_keys ([key], [key])
  else []

end ClassTable

end CallGraphs
