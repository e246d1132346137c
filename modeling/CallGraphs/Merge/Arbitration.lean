import CallGraphs.Analysis.UnitGraph
import CallGraphs.Merge.Body

/-!
# Arbitration between definitions

A function may be defined in several units.  The first definition, in the
order of the units, is kept.  Later ones that are the same are duplicates;
those that are different are excluded and reported.
-/

namespace CallGraphs

/-- The definition that is kept. -/
structure Winner where
  function : FunctionKey
  unit : String
  fingerprint : Fingerprint
deriving DecidableEq, Inhabited, Repr

/-- The outcome of arbitration. -/
structure Arbitration where
  winners : List Winner := []
  /-- The definitions that are excluded, by the index of their unit and their function. -/
  excluded : List (Nat × FunctionKey) := []
  /-- One conflict for every excluded definition. -/
  conflicts : List Diagnostic := []
  /-- The number of definitions that are the same as the one kept. -/
  duplicates : Nat := 0
deriving DecidableEq, Inhabited

namespace Arbitration

variable (digest : String → String)

/-- Whether the definition of a function in a unit is excluded. -/
def excludes (a : Arbitration) (index : Nat) (function : FunctionKey) : Bool :=
  (index, function) ∈ a.excluded

/-- The definition of a function that is kept. -/
def winner? (a : Arbitration) (function : FunctionKey) : Option Winner :=
  a.winners.find? (·.function = function)

/-- Looks at a definition in a unit. -/
def judge (p : UnitGraph) (a : Arbitration) (r : FunctionRecord) : Arbitration :=
  let fingerprint := Fingerprint.of digest p.unit r
  match a.winner? r.key with
  | none => { a with winners := a.winners ++ [⟨r.key, p.unit.name, fingerprint⟩] }
  | some winner =>
    if winner.fingerprint = fingerprint then { a with duplicates := a.duplicates + 1 }
    else
      { a with
        excluded := a.excluded ++ [(p.index, r.key)]
        conflicts := a.conflicts ++ [.odrConflict r.key winner.unit p.unit.name] }

/-- The first definition of each function in a list of records. -/
def definitions : List FunctionRecord → List FunctionRecord :=
  fun records => appendNew (fun a b => a.key = b.key) [] (records.filter (·.defined))

/-- Looks at the definitions of a unit. -/
def judgeUnit (a : Arbitration) (p : UnitGraph) : Arbitration :=
  (definitions p.unit.functions).foldl (judge digest p) a

/-- Looks at the definitions of all units, in their order. -/
def ofUnits (units : List UnitGraph) : Arbitration := units.foldl (judgeUnit digest) {}

end Arbitration

end CallGraphs
