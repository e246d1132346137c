import CallGraphs.Analysis.Options
import CallGraphs.Analysis.Scope
import CallGraphs.Classes.Hierarchy
import CallGraphs.Classes.Lifetime

/-!
# Constructor and destructor calls

The fourth pass: edges to the constructors and destructors that the compiler
calls where objects are constructed and destroyed, and from the bodies of
constructors and destructors to those of the parts of their object.

Deleting through a pointer to a class with a virtual destructor destroys an
object of that class or of any class derived from it.
-/

namespace CallGraphs

/-- Counts of the fourth pass. -/
structure SynthesisStats where
  events : Nat := 0
  definiteEdges : Nat := 0
  mayEdges : Nat := 0
  /-- The edges from the bodies of constructors and destructors. -/
  bodyEdges : Nat := 0
deriving DecidableEq, Inhabited, Repr

namespace SynthesisStats

/-- The counts in words. -/
def text (s : SynthesisStats) : String :=
  s!"{s.events} lifetime events: {s.definiteEdges} definite, {s.mayEdges} may, " ++
    s!"{s.bodyEdges} from bodies"

end SynthesisStats

namespace LifetimeCalls

/-- The graph and the counts so far. -/
abbrev State := Graph × SynthesisStats

/-- Adds edges, and counts the new ones by their confidence. -/
def emit (s : Scope) (state : State) (caller : FunctionKey) (targets : List FunctionKey)
    (confidence : Confidence) : State :=
  let (g, count) := s.callAll state.1 caller targets .implicit confidence
  match confidence with
  | .definite => (g, { state.2 with definiteEdges := state.2.definiteEdges + count })
  | .may => (g, { state.2 with mayEdges := state.2.mayEdges + count })

/-- What deleting an object through a pointer to a class runs, and how certain that is. -/
def deleteTargets (h : Hierarchy) (key : String) : List FunctionKey × Confidence :=
  if h.hasVirtualDestructor key then
    let classes := h.derivedClosure key
    ((classes.flatMap h.destroyTargets).eraseDups,
      if classes.length = 1 then .definite else .may)
  else (h.destroyTargets key, .definite)

/-- What an event on an object of a known class runs, and how certain that is. -/
def eventTargets (h : Hierarchy) (e : LifetimeEvent) : List FunctionKey × Confidence :=
  match e.phase, e.constructor with
  | .construct, some constructor => ([constructor], .definite)
  | .construct, none => (h.constructTargets e.className, .definite)
  | .destroy, _ =>
    if e.kind.dispatches then deleteTargets h e.className
    else (h.destroyTargets e.className, .definite)

/-- Adds the edges of an event; an event on an unknown class is reported. -/
def addEvent (s : Scope) (h : Hierarchy) (state : State) (e : LifetimeEvent) : State :=
  if h.contains e.className then
    let (targets, confidence) := eventTargets h e
    emit s state e.caller targets confidence
  else
    (s.malformed state.1
      (e.phase.noun ++ " of unknown class " ++ e.className ++ " in " ++ e.caller), state.2)

/-- The events that spell out what a constructor or destructor does to the parts of its object. -/
def spelledOut (events : List LifetimeEvent) : List (FunctionKey × Phase) :=
  (events.filter (·.kind.isSubobject)).map fun e => (e.caller, e.phase)

/-- Adds the edges from a body, if it is there and does not spell out what it does. -/
def addBody (s : Scope) (explicit : List (FunctionKey × Phase)) (phase : Phase)
    (targets : List FunctionKey) (state : State) (function : FunctionKey) : State :=
  if (state.1.find? function).any (·.hasBody) && (function, phase) ∉ explicit then
    let (g, stats) := emit s state function targets .definite
    (g, { stats with
      bodyEdges := stats.bodyEdges + (stats.definiteEdges - state.2.definiteEdges) })
  else state

/-- Adds the edges from the bodies of the destructor and the constructors of a class. -/
def addBodies (s : Scope) (h : Hierarchy) (explicit : List (FunctionKey × Phase)) (state : State)
    (c : ClassRecord) : State :=
  let state := (c.destructor.map (·.function)).toList.foldl
    (addBody s explicit .destroy (h.partDestroyTargets c.key)) state
  (c.constructors.map (·.function)).foldl
    (addBody s explicit .construct (h.partConstructTargets c.key)) state

/-- The fourth pass over the facts of a unit. -/
def run (s : Scope) (options : Options) (h : Hierarchy) (u : TranslationUnit) (g : Graph) :
    State :=
  if options.captureLifetimes then
    let events := u.allLifetimeEvents
    let state := events.foldl (addEvent s h) (g, { events := events.length })
    h.records.foldl (addBodies s h (spelledOut events)) state
  else (g, {})

end LifetimeCalls

end CallGraphs
