import CallGraphs.Proofs.Graph.Encoding
import CallGraphs.Proofs.Json.Texts
import CallGraphs.Store.Basic
import Mathlib

/-!
# Rows are read back

What is written of a function, a call or a diagnostic is found again in the columns
that are asked for, though these come in another order: flags from their numbers,
kinds and confidences from their names, signatures, sets of keys and diagnostics
from their JSON texts.  So no field is lost (`Function.ofRow_row`, `Call.ofRow_row`,
`Diagnostic.ofRow_row`).
-/

namespace CallGraphs

/-! ## Names of kinds and confidences -/

theorem EdgeKind.ofWord_name (kind : EdgeKind) : EdgeKind.ofWord kind.name = .ok kind := by
  cases kind <;> cbv

theorem Confidence.ofWord_name (confidence : Confidence) :
    Confidence.ofWord confidence.name = .ok confidence := by
  cases confidence <;> cbv

theorem EdgeKind.name_inj {a b : EdgeKind} : a.name = b.name ↔ a = b := by
  constructor
  · intro h
    have hword := congrArg ofWord h
    rw [ofWord_name, ofWord_name] at hword
    exact Except.ok.inj hword
  · exact congrArg name

theorem Confidence.name_inj {a b : Confidence} : a.name = b.name ↔ a = b := by
  constructor
  · intro h
    have hword := congrArg ofWord h
    rw [ofWord_name, ofWord_name] at hword
    exact Except.ok.inj hword
  · exact congrArg name

/-! ## JSON texts -/

theorem Json.plain_strings (l : List String) (n : Nat) : Plain (n + 1) (strings l) := by
  refine .array fun j hj => ?_
  obtain ⟨text, -, rfl⟩ := List.mem_map.mp hj
  exact .string text

theorem Signature.plain_toJson (s : Signature) (n : Nat) : (s.toJson .named).Plain (n + 2) := by
  refine .object fun m hm => ?_
  simp only [List.mem_cons, List.not_mem_nil, or_false] at hm
  rcases hm with rfl | rfl
  · exact Json.plain_strings s.params n
  · exact .string s.ret

theorem Finding.plain_toJson (finding : Finding) (n : Nat) : finding.toJson.Plain (n + 1) := by
  cases finding with
  | malformedFact detail =>
      refine .object fun m hm => ?_
      simp only [List.mem_cons, List.not_mem_nil, or_false] at hm
      rcases hm with rfl | rfl <;> exact .string _
  | unresolvedCall caller slot reason =>
      refine .object fun m hm => ?_
      simp only [List.mem_cons, List.not_mem_nil, or_false] at hm
      rcases hm with rfl | rfl | rfl | rfl
      · exact .string _
      · exact .string _
      · exact .string _
      · cases reason <;> exact .string _
  | odrConflict function kept dropped =>
      refine .object fun m hm => ?_
      simp only [List.mem_cons, List.not_mem_nil, or_false] at hm
      rcases hm with rfl | rfl | rfl | rfl <;> exact .string _

theorem Diagnostic.plain_toJson (d : Diagnostic) (n : Nat) : d.toJson.Plain (n + 2) := by
  refine .object fun m hm => ?_
  rcases List.mem_cons.mp hm with rfl | hm
  · exact d.finding.plain_toJson n
  · cases hunit : d.unit with
    | none => simp [hunit, Json.optionalField] at hm
    | some unit =>
        simp only [hunit, Json.optionalField, List.mem_singleton] at hm
        rw [hm]
        exact .string unit

/-! ## Columns -/

namespace ColumnValue

@[simp]
theorem asBool?_ofBool (value : Bool) : asBool? (ofBool value) = some value := by
  cases value <;> rfl

@[simp]
theorem asOption?_ofText? (value : Option String) :
    asOption? asText? (ofText? value) = some value := by
  cases value <;> rfl

theorem eq_ofText?_of_asOption? {value : ColumnValue} {t : Option String}
    (h : asOption? asText? value = some t) : value = ofText? t := by
  cases value with
  | null =>
      obtain rfl := Option.some.inj h
      rfl
  | integer n => cases h
  | text t' =>
      obtain rfl := Option.some.inj h
      rfl

end ColumnValue

namespace Row

theorem get_eq_ok {α : Type} {row : Row} {index : Nat} {read : ColumnValue → Option α}
    {name : String} {value : ColumnValue} {result : α} (hcolumn : row[index]? = some (name, value))
    (hread : read value = some result) : row.get index read = .ok result := by
  rw [get, hcolumn]
  dsimp only
  rw [hread]

/-- A JSON text is read back as what it was written for. -/
theorem getJson_ofJson {α : Type} (row : Row) (index : Nat) {decode : Json → Option α}
    {name : String} {value : Json} {result : α}
    (hcolumn : row[index]? = some (name, .ofJson value)) (hplain : value.Plain Json.maxDepth)
    (hdecode : decode value = some result) : row.getJson index decode = .ok result := by
  have htext : row.get index ColumnValue.asText? = .ok value.compact := get_eq_ok hcolumn rfl
  simp only [getJson, htext, bind, Except.bind, Json.parse?_compact hplain, Option.bind_some,
    hdecode]

end Row

/-! ## Functions -/

namespace Function

/-- The columns by which a function is asked for, with what was written. -/
theorem select_row (f : Function) (position : Nat) : (f.row position).select columns =
    [("key", .text f.key), ("display_name", .ofText? f.displayName),
      ("has_body", .ofBool f.hasBody), ("is_virtual", .ofBool f.isVirtual),
      ("is_lambda", .ofBool f.isLambda), ("stub", .ofBool f.stub),
      ("signature", .ofJson (f.signature.toJson .named)),
      ("overrides", .ofJson (.strings f.overrides.toList)),
      ("overridden_by", .ofJson (.strings f.overriddenBy.toList)),
      ("origin", .ofText? f.origin)] := by
  rfl

@[simp]
theorem column_key_row (f : Function) (position : Nat) :
    Row.column (f.row position) "key" = .text f.key := rfl

@[simp]
theorem column_position_row (f : Function) (position : Nat) :
    Row.column (f.row position) "position" = .integer (signedWord position) := rfl

@[simp]
theorem column_hasBody_row (f : Function) (position : Nat) :
    Row.column (f.row position) "has_body" = .ofBool f.hasBody := rfl

theorem keys?_strings (s : SortedSet FunctionKey) : keys? (.strings s.toList) = some s := by
  simp [keys?]

/-- A function is read back from its row. -/
theorem ofRow_row (f : Function) (position : Nat) :
    ofRow ((f.row position).select columns) = .ok f := by
  have hsignature := Row.getJson_ofJson ((f.row position).select columns) 6 rfl
    (f.signature.plain_toJson 125) (f.signature.ofJson?_toJson .named)
  have hoverrides := Row.getJson_ofJson ((f.row position).select columns) 7 rfl
    (Json.plain_strings f.overrides.toList 126) (keys?_strings f.overrides)
  have hoverriddenBy := Row.getJson_ofJson ((f.row position).select columns) 8 rfl
    (Json.plain_strings f.overriddenBy.toList 126) (keys?_strings f.overriddenBy)
  simp only [ofRow, hsignature, hoverrides, hoverriddenBy]
  simp [select_row, Row.get, ColumnValue.asText?, bind, Except.bind, pure, Except.pure]

end Function

/-! ## Calls -/

namespace Call

/-- The columns of a call, with what was written, also under a number. -/
theorem select_row (c : Call) (number : ColumnValue) :
    Row.select columns (("id", number) :: c.row) = c.row := by
  rfl

/-- A call is read back from its row. -/
theorem ofRow_row (c : Call) : ofRow c.row = .ok c := by
  simp [ofRow, row, columns, params, Row.get, ColumnValue.asText?, wordAt, EdgeKind.ofWord_name,
    Confidence.ofWord_name, bind, Except.bind, pure, Except.pure]

/-- Rows have the same key exactly if they are the rows of the same call. -/
theorem keyColumns_row_iff (c d : Call) (number : ColumnValue) :
    keyColumns.map (Row.column (("id", number) :: c.row)) = keyColumns.map d.row.column ↔
      c.sameEdge d = true := by
  have hleft : keyColumns.map (Row.column (("id", number) :: c.row)) =
      [.text c.caller, .text c.callee, .text c.kind.name, .text c.confidence.name] := rfl
  have hright : keyColumns.map d.row.column =
      [.text d.caller, .text d.callee, .text d.kind.name, .text d.confidence.name] := rfl
  rw [hleft, hright]
  simp [sameEdge, EdgeKind.name_inj, Confidence.name_inj, and_assoc]

end Call

/-! ## Diagnostics -/

namespace Diagnostic

/-- A diagnostic is read back from its row, under any number. -/
theorem ofRow_row (d : Diagnostic) (number : ColumnValue) :
    ofRow (Row.select columns (("id", number) :: d.row)) = .ok d :=
  Row.getJson_ofJson _ 0 rfl (d.plain_toJson 125) d.ofJson?_toJson

end Diagnostic

end CallGraphs
