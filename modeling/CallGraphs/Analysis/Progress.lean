/-!
# Progress

What an analysis has to say while it runs, in order.
-/

namespace CallGraphs

/-- The phases of an analysis. -/
inductive ProgressPhase where
  | analyzing
  | merging
  | resolving
deriving DecidableEq, Inhabited, Repr

/-- A step of progress. -/
inductive Progress where
  | started (phase : ProgressPhase) (total : Nat)
  | advanced (phase : ProgressPhase) (current : Nat) (unit : String)
  | finished (phase : ProgressPhase)
deriving DecidableEq, Inhabited, Repr

end CallGraphs
