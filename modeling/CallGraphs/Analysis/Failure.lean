/-!
# Failures of an analysis

Only what leaves no graph to speak of is a failure.  Problems in the facts
that can be worked around are diagnostics on the graph instead.
-/

namespace CallGraphs

/-- Why an analysis has no result. -/
inductive Failure where
  /-- A class is among its own bases. -/
  | inheritanceCycle (className : String)
  /-- The pointer flow needs more rounds than it may take. -/
  | diverged (cap slots functions : Nat)
  /-- The analysis was called off. -/
  | cancelled
  /-- A call reaches a node number that no function has. -/
  | unknownFunction (id : Nat)
deriving DecidableEq, Inhabited, Repr

namespace Failure

/-- The failure in words. -/
def message : Failure → String
  | inheritanceCycle className => "Inheritance cycle through class " ++ className
  | diverged cap slots functions =>
    s!"Pointer-flow fixpoint exceeded {cap} iterations ({slots} slots, {functions} functions)"
  | cancelled => "Analysis cancelled"
  | unknownFunction id => s!"No function has the node number {id}"

end Failure

end CallGraphs
