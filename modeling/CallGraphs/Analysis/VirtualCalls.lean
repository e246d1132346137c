import CallGraphs.Analysis.Failure
import CallGraphs.Analysis.Scope
import CallGraphs.Classes.Dispatch

/-!
# Virtual calls

The second pass: it builds the class hierarchy of the facts, brings virtual
flags and override links into the graph, and adds edges to the candidates of
every virtual call.  A call on an unknown class, or of a method that the class
does not have, is reported and goes to a function made up from the two names.
-/

namespace CallGraphs

/-- Counts of the second pass. -/
structure DispatchStats where
  sites : Nat := 0
  definite : Nat := 0
  may : Nat := 0
  unresolved : Nat := 0
deriving DecidableEq, Inhabited, Repr

namespace DispatchStats

/-- The counts in words. -/
def text (s : DispatchStats) : String :=
  s!"{s.sites} sites ({s.definite} definite, {s.may} may, {s.unresolved} unresolved)"

end DispatchStats

namespace VirtualCalls

/-- Marks a function of the graph as virtual; a function that is not there is left out. -/
def markVirtual (g : Graph) (function : FunctionKey) : Graph :=
  match g.nodeId? function with
  | some id => g.modifyNode id fun f => { f with isVirtual := true }
  | none => g

/-- The function that stands for a method that cannot be found. -/
def standIn (receiver method : String) : FunctionKey := receiver ++ "::" ++ method

/-- Why a call cannot be dispatched, in words. -/
def failureText (receiver method : String) : DispatchFailure → String
  | .unknownClass => "unknown class " ++ receiver
  | .unknownMethod => receiver ++ " has no method " ++ method

/-- Adds the edges of a virtual call. -/
def addSite (s : Scope) (h : Hierarchy) (state : Graph × DispatchStats) (site : CallSite) :
    Graph × DispatchStats :=
  match site.target with
  | .virtual receiver method =>
    let (g, stats) := state
    let stats := { stats with sites := stats.sites + 1 }
    match h.dispatch receiver method with
    | .ok d =>
      let g := (s.callAll g site.caller d.targets.toList .virtual d.confidence).1
      match d.confidence with
      | .definite => (g, { stats with definite := stats.definite + 1 })
      | .may => (g, { stats with may := stats.may + 1 })
    | .error failure =>
      let g := s.malformed g
        ("virtual call in " ++ site.caller ++ ": " ++ failureText receiver method failure)
      let g := (s.call g site.caller (standIn receiver method) .virtual .definite).1
      (g, { stats with unresolved := stats.unresolved + 1 })
  | _ => state

/-- Brings what the hierarchy knows into the graph. -/
def record (s : Scope) (h : Hierarchy) (g : Graph) : Graph :=
  let g := h.problems.foldl s.malformed g
  let g := h.virtuals.toList.foldl markVirtual g
  h.overrides.toList.foldl (fun g o => g.linkOverride o.overrider o.base) g

/-- The second pass over the facts of a unit. -/
def run (s : Scope) (u : TranslationUnit) (g : Graph) :
    Except Failure (Graph × Hierarchy × DispatchStats) :=
  match Hierarchy.build u.classes u.functions with
  | .error key => .error (.inheritanceCycle key)
  | .ok h =>
    let (g, stats) := u.callSites.foldl (addSite s h) (record s h g, {})
    .ok (g, h, stats)

end VirtualCalls

end CallGraphs
