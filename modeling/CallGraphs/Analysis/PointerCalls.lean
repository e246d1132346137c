import CallGraphs.Analysis.Options
import CallGraphs.Analysis.Scope
import CallGraphs.Classes.Dispatch
import CallGraphs.Classes.Unions
import CallGraphs.Flow.Solve

/-!
# Calls through pointers

The third pass: it turns default arguments, assignments and the arguments of
calls into a flow program, solves it, and adds a possible edge to every
function that the slot of an indirect call may hold.  A call whose slot holds
nothing, or may hold the result of a call that is not followed, is reported.
-/

namespace CallGraphs

/-- What the third pass did. -/
structure FlowReport where
  fixpoint : Flow.FixpointStats := {}
  indirectSites : Nat := 0
  pointerEdges : Nat := 0
  unresolvedSites : Nat := 0
deriving DecidableEq, Inhabited, Repr

namespace FlowReport

/-- The pass in words. -/
def text (r : FlowReport) : String :=
  s!"{r.indirectSites} indirect sites, {r.pointerEdges} edges, " ++
    s!"{r.unresolvedSites} unresolved; {r.fixpoint.text}"

end FlowReport

namespace PointerCalls

/-- What the pass depends on. -/
structure Setting where
  scope : Scope
  hierarchy : Hierarchy
  returnFlow : ReturnFlow

/-- The graph and the flow program under construction. -/
structure State where
  graph : Graph
  program : Flow.Program := .empty

/-! ## From facts to constraints -/

/-- The node of a function that a fact refers to. -/
def reference (c : Setting) (st : State) (key : FunctionKey) (what : String) : State × NodeId :=
  let (graph, id) := c.scope.reference st.graph key what
  ({ st with graph }, id)

/-- The place of a slot as it stands. -/
def intern (st : State) (slot : Slot) : State × Flow.SlotId :=
  let (program, id) := st.program.intern slot
  ({ st with program }, id)

/-- The place under which what a slot holds is kept. -/
def place (c : Setting) (st : State) (slot : Slot) : State × Flow.SlotId :=
  intern st (c.hierarchy.canonical slot)

/-- What flows from a source. -/
def value (c : Setting) (st : State) : PointerSource → State × Option Flow.Value
  | .function key =>
    let (st, id) := reference c st key "address-of"
    (st, some (.function id))
  | .lambda key =>
    let (st, id) := reference c st key "lambda conversion"
    ({ st with graph := st.graph.modifyNode id fun f => { f with isLambda := true } },
      some (.function id))
  | .slot slot =>
    let (st, id) := place c st slot
    (st, some (.slot id))
  | .callResult callee =>
    match c.returnFlow with
    | .track =>
      let (st, id) := intern st (.result callee)
      (st, some (.slot id))
    | .unresolved => (st, some .blocked)
  | .null => (st, none)

/-- What flows from an argument; nothing from one that is no function address. -/
def argument (c : Setting) (st : State) : Option PointerSource → State × Option Flow.Value
  | some source => value c st source
  | none => (st, none)

/-- What flows from the arguments of a call. -/
def arguments (c : Setting) (st : State) (args : List (Option PointerSource)) :
    State × List (Option Flow.Value) :=
  args.foldl (fun (st, values) arg =>
    let (st, value) := argument c st arg
    (st, values ++ [value])) (st, [])

/-- Adds a default argument of a function. -/
def addDefault (c : Setting) (id : NodeId) (st : State) (d : DefaultArg) : State :=
  match value c st d.value with
  | (st, some v) => { st with program := st.program.addDefault id d.index v }
  | (st, none) => st

/-- Adds the default arguments of a function. -/
def addDefaults (c : Setting) (st : State) (r : FunctionRecord) : State :=
  if r.defaultArgs.isEmpty then st
  else
    let (st, id) := reference c st r.key "default argument owner"
    r.defaultArgs.foldl (addDefault c id) st

/-- Adds an assignment. -/
def addAssignment (c : Setting) (st : State) (a : Assignment) : State :=
  let (st, target) := place c st a.destination
  match value c st a.source with
  | (st, some v) => { st with program := st.program.assign v target }
  | (st, none) => st

/-- Adds a call of a known function. -/
def addStaticCall (c : Setting) (what : String) (args : List (Option Flow.Value)) (explicit : Nat)
    (st : State) (callee : FunctionKey) : State :=
  let (st, callee) := reference c st callee what
  { st with program := st.program.addStaticCall { callee, args, explicit } }

/-- Adds a call through a slot. -/
def addIndirectCall (c : Setting) (st : State) (site : CallSite) (slot : Slot) (expand : Bool) :
    State :=
  let (st, through) := place c st slot
  let (st, args) := arguments c st site.args
  { st with
    program := st.program.addIndirectCall { through, args, explicit := site.explicitArgs, expand } }

/-- Adds a call site. -/
def addSite (c : Setting) (st : State) (site : CallSite) : State :=
  match site.target with
  | .direct callee =>
    let (st, id) := reference c st callee ("call from " ++ site.caller)
    let (st, args) := arguments c st site.args
    { st with
      program := st.program.addStaticCall { callee := id, args, explicit := site.explicitArgs } }
  | .virtual receiver method =>
    match c.hierarchy.dispatch receiver method with
    | .ok d =>
      let (st, args) := arguments c st site.args
      d.targets.toList.foldl
        (addStaticCall c ("virtual call from " ++ site.caller) args site.explicitArgs) st
    | .error _ => st
  | .pointer slot => addIndirectCall c st site slot false
  | .memberPointer slot _ => addIndirectCall c st site slot true
  | .implicit .. => st

/-- Adds the overriders of a virtual function that is in the graph. -/
def addExpansion (c : Setting) (st : State) (function : FunctionKey) : State :=
  match st.graph.nodeId? function with
  | some id =>
    let overriders := (c.hierarchy.overriders function).toList.filterMap st.graph.nodeId?
    { st with program := st.program.addExpansion id overriders }
  | none => st

/-- The constraints of all facts of a unit. -/
def constraints (c : Setting) (u : TranslationUnit) (g : Graph) : State :=
  let st := u.functions.foldl (addDefaults c) { graph := g }
  let st := u.assignments.foldl (addAssignment c) st
  let st := u.callSites.foldl (addSite c) st
  c.hierarchy.virtuals.toList.foldl (addExpansion c) st

/-! ## From the solution to edges -/

/-- The slot, kind of edge and static class of an indirect call. -/
def indirect? (site : CallSite) : Option (Slot × EdgeKind × Option String) :=
  match site.target with
  | .pointer slot => some (slot, .pointer, none)
  | .memberPointer slot receiver => some (slot, .memberPointer, receiver)
  | _ => none

/-- The functions that a call through a slot may run. -/
def targets (c : Setting) (g : Graph) (p : Flow.Program) (id : Flow.SlotId) (kind : EdgeKind)
    (receiver : Option String) : SortedSet FunctionKey :=
  let held := (p.heldBy id).toList.map g.keyOf
  match kind with
  | .memberPointer => .ofList (held.flatMap (c.hierarchy.memberPointerTargets · receiver))
  | _ => .ofList held

/-- The unit that an unresolved call is charged to. -/
def unitOf (c : Setting) (g : Graph) (caller : FunctionKey) : Option String :=
  if c.scope.isGlobal then (g.find? caller).bind (·.origin) else some c.scope.unit

/-- Adds the edges of an indirect call, and reports it if its targets are not all known. -/
def resolveSite (c : Setting) (p : Flow.Program) (state : Graph × FlowReport) (site : CallSite) :
    Graph × FlowReport :=
  match indirect? site with
  | none => state
  | some (slot, kind, receiver) =>
    let (g, report) := state
    let report := { report with indirectSites := report.indirectSites + 1 }
    match p.slotId? (c.hierarchy.canonical slot) with
    | none => (g, report)
    | some id =>
      let targets := targets c g p id kind receiver
      let (g, count) := c.scope.callAll g site.caller targets.toList kind .may
      let report := { report with pointerEdges := report.pointerEdges + count }
      if targets.isEmpty || p.isBlocked id then
        let reason : UnresolvedReason :=
          if p.isBlocked id then .returnValue else .emptyAliasSet
        let finding := Finding.unresolvedCall site.caller (site.label.getD slot.text) reason
        (g.addDiagnostic { finding, unit := unitOf c g site.caller },
          { report with unresolvedSites := report.unresolvedSites + 1 })
      else (g, report)

/-- The third pass over the facts of a unit. -/
def run (s : Scope) (options : Options) (cancelled : Bool) (h : Hierarchy) (u : TranslationUnit)
    (g : Graph) : Graph × Except Failure FlowReport :=
  let c : Setting := { scope := s, hierarchy := h, returnFlow := options.returnFlow }
  let st := constraints c u g
  match st.program.solve (st.graph.nodes.map (·.key)) options.maxIterations cancelled with
  | (_, .error failure) => (st.graph, .error failure)
  | (p, .ok fixpoint) =>
    let (g, report) := u.callSites.foldl (resolveSite c p) (st.graph, { fixpoint })
    (g, .ok report)

end PointerCalls

end CallGraphs
