import CallGraphs.Graph.Function

/-!
# Diagnostics

Problems that do not stop an analysis.  They are recorded on the graph, so
that whoever reads it can decide how careful to be.
-/

namespace CallGraphs

/-- Why the targets of an indirect call are not all known. -/
inductive UnresolvedReason where
  /-- Nothing is ever assigned to the slot. -/
  | emptyAliasSet
  /-- The slot may hold the result of a call, which is not followed. -/
  | returnValue
deriving DecidableEq, Inhabited, Repr

namespace UnresolvedReason

/-- The reason in words. -/
def text : UnresolvedReason → String
  | emptyAliasSet => "empty alias set"
  | returnValue => "flows from a return value"

end UnresolvedReason

/-- What a diagnostic is about. -/
inductive Finding where
  /-- A fact names an unknown symbol or has an inconsistent shape. -/
  | malformedFact (detail : String)
  /-- An indirect call whose targets are not all known. -/
  | unresolvedCall (caller : FunctionKey) (slot : String) (reason : UnresolvedReason)
  /-- Two units define one function differently. -/
  | odrConflict (function : FunctionKey) (kept dropped : String)
deriving DecidableEq, Inhabited, Repr

namespace Finding

/-- The label of a kind of finding. -/
def label : Finding → String
  | malformedFact .. => "malformed-fact"
  | unresolvedCall .. => "unresolved-indirect-call"
  | odrConflict .. => "odr-conflict"

/-- The place of a kind of finding in the order of diagnostics. -/
def rank : Finding → Nat
  | malformedFact .. => 0
  | unresolvedCall .. => 1
  | odrConflict .. => 2

/-- The texts by which findings of one kind are ordered. -/
def parts : Finding → List String
  | malformedFact detail => [detail]
  | unresolvedCall caller slot reason => [caller, slot, reason.text]
  | odrConflict function kept dropped => [function, kept, dropped]

/-- The finding in words. -/
def text : Finding → String
  | malformedFact detail => detail
  | unresolvedCall caller slot reason =>
    "call through " ++ slot ++ " in " ++ caller ++ " (" ++ reason.text ++ ")"
  | odrConflict function kept dropped =>
    function ++ " defined differently; kept " ++ kept ++ ", dropped " ++ dropped

end Finding

/-- A finding and the unit it was raised in. -/
structure Diagnostic where
  finding : Finding
  unit : Option String := none
deriving DecidableEq, Inhabited, Repr

namespace Diagnostic

/-- Diagnostics sort by kind of finding, then by its texts, then by unit, no unit first. -/
instance : Ord Diagnostic where
  compare :=
    compareLex (compareOn (·.finding.rank)) <|
    compareLex (compareOn (·.finding.parts)) (compareOn Diagnostic.unit)

/-- A conflict is charged to the unit whose definition is dropped. -/
def odrConflict (function : FunctionKey) (kept dropped : String) : Diagnostic :=
  { finding := .odrConflict function kept dropped, unit := some dropped }

/-- It marks an indirect call that is not resolved. -/
def isUnresolvedCall (d : Diagnostic) : Bool :=
  match d.finding with
  | .unresolvedCall .. => true
  | _ => false

/-- The diagnostic as one line. -/
def text (d : Diagnostic) : String :=
  let place := match d.unit with
    | some unit => " " ++ unit ++ ":"
    | none => ""
  "[" ++ d.finding.label ++ "]" ++ place ++ " " ++ d.finding.text

end Diagnostic

end CallGraphs
