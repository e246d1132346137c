import CallGraphs.Graph.Encoding
import CallGraphs.Proofs.Facts.RoundTrip

/-!
# Functions, calls and diagnostics are read back from their records

What a graph is made of survives being written as JSON values.  The texts of these
values are the business of `CallGraphs.Proofs.Json.Texts`.
-/

namespace CallGraphs

@[simp]
theorem SortedSet.ofList_toList {α : Type} [Ord α] [Std.TransOrd α] [Std.LawfulEqOrd α]
    (s : SortedSet α) : ofList s.toList = s :=
  eq_of_forall_mem_iff fun _ => mem_ofList

theorem Function.ofJson?_toJson (f : Function) : ofJson? f.toJson = some f := by
  obtain ⟨key, displayName, hasBody, isVirtual, isLambda, stub, signature, overrides, overriddenBy,
    origin⟩ := f
  cases displayName <;> cases origin <;>
    simp [-Option.bind_eq_bind, Json.some_bind, ofJson?, toJson, Json.optionalField,
      Signature.ofJson?_toJson]

theorem EdgeKind.ofJson?_toJson (kind : EdgeKind) : ofJson? kind.toJson = some kind := by
  cases kind with
  | _ => rfl

theorem Confidence.ofJson?_toJson (confidence : Confidence) :
    ofJson? confidence.toJson = some confidence := by
  cases confidence with
  | _ => rfl

theorem Call.ofJson?_toJson (c : Call) : ofJson? c.toJson = some c := by
  obtain ⟨caller, callee, kind, confidence, origin⟩ := c
  cases origin <;>
    simp [ofJson?, toJson, Json.optionalField, EdgeKind.ofJson?_toJson, Confidence.ofJson?_toJson]

@[simp]
theorem UnresolvedReason.isSound_toJson (reason : UnresolvedReason) :
    reason.toJson.isSound = true := by
  cases reason with
  | _ => rfl

@[simp]
theorem UnresolvedReason.wordIn?_toJson (dialect : Dialect) (reason : UnresolvedReason) :
    Json.wordIn? dialect words reason.toJson = some reason := by
  cases reason with
  | _ => rfl

theorem Finding.ofJson?_toJson (finding : Finding) : ofJson? finding.toJson = some finding := by
  cases finding with
  | malformedFact detail => simp [ofJson?, toJson]
  | unresolvedCall caller slot reason => simp [ofJson?, toJson]
  | odrConflict function kept dropped => simp [ofJson?, toJson]

theorem Diagnostic.ofJson?_toJson (d : Diagnostic) : ofJson? d.toJson = some d := by
  obtain ⟨finding, unit⟩ := d
  cases unit <;> simp [ofJson?, toJson, Json.optionalField, Finding.ofJson?_toJson]

end CallGraphs
