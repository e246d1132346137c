import CallGraphs.Analysis.DirectCalls
import CallGraphs.Analysis.LifetimeCalls
import CallGraphs.Analysis.PointerCalls
import CallGraphs.Analysis.Progress
import CallGraphs.Analysis.VirtualCalls

/-!
# The graph of one unit

All four passes over the facts of a unit on its own, and over a list of units
one by one.
-/

namespace CallGraphs

/-- Counts of all passes over a unit. -/
structure UnitReport where
  build : BuildStats := {}
  dispatch : DispatchStats := {}
  flow : FlowReport := {}
  synthesis : SynthesisStats := {}
deriving DecidableEq, Inhabited, Repr

namespace UnitReport

/-- The counts as a text of several lines. -/
def text (r : UnitReport) : String :=
  s!"  build: {r.build.text}\n" ++
  s!"  virtual: {r.dispatch.text}\n" ++
  s!"  pointers: {r.flow.text}\n" ++
  s!"  implicit: {r.synthesis.text}\n"

end UnitReport

/-- A unit and the graph that its own facts give. -/
structure UnitGraph where
  /-- The place of the unit among all units, by which the first one is told. -/
  index : Nat
  unit : TranslationUnit
  graph : Graph
  report : UnitReport
deriving Inhabited

namespace UnitGraph

/-- Analyses one unit. -/
def analyse (options : Options) (cancelled : Bool) (index : Nat) (u : TranslationUnit) :
    Except Failure UnitGraph :=
  if cancelled then .error .cancelled
  else
    let s : Scope := { unit := u.name }
    let (g, build) := DirectCalls.run s u .empty
    match VirtualCalls.run s u g with
    | .error failure => .error failure
    | .ok (g, h, dispatch) =>
      match PointerCalls.run s options cancelled h u g with
      | (_, .error failure) => .error failure
      | (g, .ok flow) =>
        let (g, synthesis) := LifetimeCalls.run s options h u g
        .ok { index, unit := u, graph := g, report := { build, dispatch, flow, synthesis } }

/-- What is said while units are analysed: a line for each, in order. -/
def progress (units : List TranslationUnit) : List Progress :=
  units.zipIdx.map fun (u, i) => .advanced .analyzing (i + 1) u.name

/--
Analyses all units.  Every unit is analysed, and the first one that fails
decides the failure.
-/
def analyseAll (options : Options) (cancelled : Bool) (units : List TranslationUnit) :
    List Progress × Except Failure (List UnitGraph) :=
  let start := Progress.started .analyzing units.length
  if cancelled then ([start], .error .cancelled)
  else
    match units.zipIdx.mapM fun (u, i) => analyse options cancelled i u with
    | .error failure => (start :: progress units, .error failure)
    | .ok graphs => (start :: progress units ++ [.finished .analyzing], .ok graphs)

/-- Analyses units under given indices, one after the other, up to the first that fails. -/
def analyseIndexed (options : Options) (cancelled : Bool) (units : List (Nat × TranslationUnit)) :
    Except Failure (List UnitGraph) :=
  units.mapM fun (i, u) => analyse options cancelled i u

end UnitGraph

end CallGraphs
