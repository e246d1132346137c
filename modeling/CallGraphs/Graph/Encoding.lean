import CallGraphs.Facts.Encoding
import CallGraphs.Graph.Basic
import CallGraphs.Graph.Stats

/-!
# Graphs in JSON

The records in which functions, calls and diagnostics are written.  A readable
name, an origin or a unit that is absent is left out of the record.
-/

namespace CallGraphs

namespace Function

/-- The function as a record. -/
def toJson (f : Function) : Json :=
  .object <|
    [("key", .string f.key)] ++
    Json.optionalField "display_name" f.displayName ++
    [("has_body", .bool f.hasBody),
      ("is_virtual", .bool f.isVirtual),
      ("is_lambda", .bool f.isLambda),
      ("stub", .bool f.stub),
      ("signature", f.signature.toJson .named),
      ("overrides", .strings f.overrides.toList),
      ("overridden_by", .strings f.overriddenBy.toList)] ++
    Json.optionalField "origin" f.origin

/-- Reads a function. -/
def ofJson? (j : Json) : Option Function := do
  let f ← j.fields? ["key", "display_name", "has_body", "is_virtual", "is_lambda", "stub",
    "signature", "overrides", "overridden_by", "origin"]
  some {
    key := ← f.get "key" Json.asString?
    displayName := ← f.option "display_name" Json.asString?
    hasBody := ← f.get "has_body" Json.asBool?
    isVirtual := ← f.get "is_virtual" Json.asBool?
    isLambda := ← f.flag "is_lambda"
    stub := ← f.flag "stub"
    signature := ← f.getD "signature" {} Signature.ofJson?
    overrides := .ofList (← f.list "overrides" Json.asString?)
    overriddenBy := .ofList (← f.list "overridden_by" Json.asString?)
    origin := ← f.option "origin" Json.asString? }

end Function

namespace EdgeKind

/-- The words for the kinds. -/
def words : List (String × EdgeKind) := all.map fun kind => (kind.name, kind)

/-- The kind as a word. -/
def toJson (kind : EdgeKind) : Json := .string kind.name

/-- Reads a kind; only its own name stands for it. -/
def ofJson? : Json → Option EdgeKind := Json.asWord? words

end EdgeKind

namespace Confidence

/-- The words for the confidences. -/
def words : List (String × Confidence) := [("definite", definite), ("may", may)]

/-- The confidence as a word. -/
def toJson (confidence : Confidence) : Json := .string confidence.name

/-- Reads a confidence; only its own name stands for it. -/
def ofJson? : Json → Option Confidence := Json.asWord? words

end Confidence

namespace Call

/-- The call as a record. -/
def toJson (c : Call) : Json :=
  .object <|
    [("caller", .string c.caller),
      ("callee", .string c.callee),
      ("kind", c.kind.toJson),
      ("confidence", c.confidence.toJson)] ++
    Json.optionalField "origin" c.origin

/-- Reads a call. -/
def ofJson? (j : Json) : Option Call := do
  let f ← j.fields? ["caller", "callee", "kind", "confidence", "origin"]
  some {
    caller := ← f.get "caller" Json.asString?
    callee := ← f.get "callee" Json.asString?
    kind := ← f.get "kind" EdgeKind.ofJson?
    confidence := ← f.get "confidence" Confidence.ofJson?
    origin := ← f.option "origin" Json.asString? }

end Call

namespace UnresolvedReason

/-- The words for the reasons. -/
def words : List (String × UnresolvedReason) :=
  [("empty_alias_set", emptyAliasSet), ("return_value", returnValue)]

/-- The reason as a word. -/
def toJson : UnresolvedReason → Json
  | emptyAliasSet => .string "empty_alias_set"
  | returnValue => .string "return_value"

end UnresolvedReason

namespace Finding

/-- The finding as a choice of records. -/
def toJson : Finding → Json
  | malformedFact detail => .choice "malformed_fact" [("detail", .string detail)]
  | unresolvedCall caller slot reason =>
    .choice "unresolved_indirect_call" [("caller", .string caller), ("slot", .string slot),
      ("reason", reason.toJson)]
  | odrConflict function kept dropped =>
    .choice "odr_conflict" [("function", .string function), ("kept", .string kept),
      ("dropped", .string dropped)]

/-- The kinds of findings. -/
def kinds : List String := ["malformed_fact", "unresolved_indirect_call", "odr_conflict"]

/-- Reads a finding. -/
def ofJson? (j : Json) : Option Finding := do
  let (kind, content) ← j.choice? kinds false
  match kind with
  | "malformed_fact" =>
    let f ← content.fields? ["detail"]
    some (malformedFact (← f.get "detail" Json.asString?))
  | "unresolved_indirect_call" =>
    let f ← content.fields? ["caller", "slot", "reason"]
    some (unresolvedCall (← f.get "caller" Json.asString?) (← f.get "slot" Json.asString?)
      (← f.get "reason" (Json.wordIn? .inner UnresolvedReason.words)))
  | "odr_conflict" =>
    let f ← content.fields? ["function", "kept", "dropped"]
    some (odrConflict (← f.get "function" Json.asString?) (← f.get "kept" Json.asString?)
      (← f.get "dropped" Json.asString?))
  | _ => none

end Finding

namespace Diagnostic

/-- The diagnostic as a record. -/
def toJson (d : Diagnostic) : Json :=
  .object (("kind", d.finding.toJson) :: Json.optionalField "tu" d.unit)

/-- Reads a diagnostic. -/
def ofJson? (j : Json) : Option Diagnostic := do
  let f ← j.fields? ["kind", "tu"]
  some { finding := ← f.get "kind" Finding.ofJson?, unit := ← f.option "tu" Json.asString? }

end Diagnostic

namespace GraphStats

/-- The counts as a record. -/
def toJson (s : GraphStats) : Json :=
  .object [
    ("functions", .natural s.functions),
    ("defined", .natural s.defined),
    ("stubs", .natural s.stubs),
    ("virtual_functions", .natural s.virtualFunctions),
    ("total_edges", .natural s.totalEdges),
    ("definite_edges", .natural s.definiteEdges),
    ("may_edges", .natural s.mayEdges),
    ("edges_by_kind", .object (s.edgesByKind.map fun (kind, count) => (kind.name, .natural count))),
    ("diagnostics", .natural s.diagnostics),
    ("unresolved_calls", .natural s.unresolvedCalls)]

end GraphStats

end CallGraphs
