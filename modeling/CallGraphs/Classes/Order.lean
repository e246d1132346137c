import CallGraphs.Classes.Table
import CallGraphs.Data.Counting

/-!
# Bases before derived classes

A depth-first walk over the classes of a table that lists every class after
its bases, or finds a class that is its own ancestor.  The walk keeps the
path it is on as a stack of classes, each with the bases still to be looked
at; a base that is on the path closes a cycle.
-/

namespace CallGraphs

namespace ClassTable

/-- The classes on a path. -/
def onPath (path : List (String × List String)) : List String := path.map (·.1)

/-- The number of bases still to be looked at along a path, and of classes on it. -/
def pathWork (path : List (String × List String)) : Nat :=
  sumOf (fun entry => entry.2.length + 1) path

/--
Finishes the classes on a path, adding each to `done` when all its bases are
there.  The error is a class that is a base of itself or of one of its bases.
-/
def walk (t : ClassTable) (path : List (String × List String)) (done : List String) :
    Except String (List String) :=
  match path with
  | [] => .ok done
  | (key, []) :: rest => walk t rest (done ++ [key])
  | (key, base :: bases) :: rest =>
    if base ∉ t.keys then walk t ((key, bases) :: rest) done
    else if base ∈ onPath ((key, bases) :: rest) then .error base
    else if base ∈ done then walk t ((key, bases) :: rest) done
    else walk t ((base, t.basesOf base) :: (key, bases) :: rest) done
termination_by (unseen t.keys (onPath path ++ done), pathWork path)
decreasing_by
  · have h : unseen t.keys (onPath rest ++ (done ++ [key])) ≤
        unseen t.keys (onPath ((key, []) :: rest) ++ done) :=
      unseen_le_of_subset (by simp [onPath])
    rcases Nat.lt_or_eq_of_le h with h | h
    · exact Prod.Lex.left _ _ h
    · rw [h]
      exact Prod.Lex.right _ (by simp [pathWork, sumOf])
  · exact Prod.Lex.right _ (by simp [pathWork, sumOf])
  · exact Prod.Lex.right _ (by simp [pathWork, sumOf])
  · refine Prod.Lex.left _ _ ?_
    show unseen t.keys (base :: (onPath ((key, bases) :: rest) ++ done)) <
      unseen t.keys (onPath ((key, bases) :: rest) ++ done)
    exact unseen_cons_lt (by simp_all) (by simp_all)

/-- `walk` from a class that the earlier walks did not come to. -/
def walkFrom (t : ClassTable) (done : List String) (root : String) :
    Except String (List String) :=
  if root ∈ done then .ok done else t.walk [(root, t.basesOf root)] done

/--
The classes with every base before the classes derived from it; or a class on
a cycle of bases.
-/
def basesFirst (t : ClassTable) : Except String (List String) :=
  t.keys.foldlM t.walkFrom []

end ClassTable

end CallGraphs
