import CallGraphs.Data.Word
import CallGraphs.Graph.Encoding
import CallGraphs.Json.Parser
import CallGraphs.Json.Printer
import CallGraphs.Vocabulary

/-!
# Rows of tables

Functions, calls and diagnostics are stored as rows of plain values.  A flag is
stored as a number, a kind or a confidence by its name, and a signature, a set
of keys or a diagnostic as a JSON text.  A statement names the columns that it
writes or asks for; what it asks for is read by position.
-/

namespace CallGraphs

/-! ## Errors -/

/-- Why something cannot be stored or read. -/
inductive DatabaseError where
  /-- A transaction is open. -/
  | nested
  /-- There is no transaction to commit. -/
  | commitWithout
  /-- There is no transaction to undo. -/
  | rollbackWithout
  /-- A statement was not carried out, for a reason that has nothing to do with what is stored. -/
  | refused (reason : String)
  /-- There is no such column among those that were asked for. -/
  | noColumn (index : Nat)
  /-- A column has a value of another type than it should have. -/
  | wrongType (index : Nat) (name type : String)
  /-- The text of a column is not the JSON text that it should be. -/
  | malformed (index : Nat)
  /-- The text of a column is a word that names nothing. -/
  | unknownWord (index : Nat) (error : UnknownWord)
deriving DecidableEq, Inhabited, Repr

namespace DatabaseError

/-- What is wrong. -/
def detail : DatabaseError → String
  | nested => "cannot start a transaction within a transaction"
  | commitWithout => "cannot commit - no transaction is active"
  | rollbackWithout => "cannot rollback - no transaction is active"
  | refused reason => reason
  | noColumn index => s!"Invalid column index: {index}"
  | wrongType index name type =>
    s!"Invalid column type {type} at index: {index}, name: " ++ name
  | malformed index => s!"Conversion error from type Text at index: {index}"
  | unknownWord index error =>
    s!"Conversion error from type Text at index: {index}, " ++ error.message

/-- The error in words. -/
def message (e : DatabaseError) : String := "Storage error: " ++ e.detail

end DatabaseError

/-! ## Values -/

/-- The value of a column.  Nothing comes before numbers, and numbers before texts. -/
inductive ColumnValue where
  | null
  | integer (value : Int)
  | text (value : String)
deriving DecidableEq, Ord, Inhabited, Repr

namespace ColumnValue

/-- A text that may be absent. -/
def ofText? : Option String → ColumnValue
  | some value => text value
  | none => null

/-- A truth value as a number. -/
def ofBool (value : Bool) : ColumnValue := integer (if value then 1 else 0)

/-- A JSON value as its text. -/
def ofJson (value : Json) : ColumnValue := text value.compact

/-- The type of a value. -/
def type : ColumnValue → String
  | null => "Null"
  | integer _ => "Integer"
  | text _ => "Text"

/-- A text. -/
def asText? : ColumnValue → Option String
  | text value => some value
  | _ => none

theorem eq_text_of_asText? {value : ColumnValue} {t : String} (h : value.asText? = some t) :
    value = text t := by
  cases value with
  | text t' => exact congrArg text (Option.some.inj h)
  | null => cases h
  | integer n => cases h

/-- A truth value: any number but zero is true. -/
def asBool? : ColumnValue → Option Bool
  | integer value => some (value ≠ 0)
  | _ => none

/-- A value that may be absent. -/
def asOption? {α : Type} (read : ColumnValue → Option α) : ColumnValue → Option (Option α)
  | null => some none
  | value => (read value).map some

end ColumnValue

/-- A row: its columns in order, each with its name. -/
abbrev Row := List (String × ColumnValue)

namespace Row

/-- The value of a column; a column that is not given has none. -/
def column (row : Row) (name : String) : ColumnValue := (row.lookup name).getD .null

/-- The columns that a statement asks for, in its order. -/
def select (columns : List String) (row : Row) : Row :=
  columns.map fun name => (name, row.column name)

/-- Reads the column at a position. -/
def get {α : Type} (row : Row) (index : Nat) (read : ColumnValue → Option α) :
    Except DatabaseError α :=
  match row[index]? with
  | none => .error (.noColumn index)
  | some (name, value) =>
    match read value with
    | some result => .ok result
    | none => .error (.wrongType index name value.type)

/-- What is read at a position is read from the value there. -/
theorem read_of_get {α : Type} {row : Row} {index : Nat} {read : ColumnValue → Option α}
    {name : String} {value : ColumnValue} {result : α} (hcolumn : row[index]? = some (name, value))
    (h : row.get index read = .ok result) : read value = some result := by
  rw [get, hcolumn] at h
  dsimp only at h
  split at h
  · next hread => rw [hread, Except.ok.inj h]
  · cases h

/-- Reads the JSON text in the column at a position. -/
def getJson {α : Type} (row : Row) (index : Nat) (decode : Json → Option α) :
    Except DatabaseError α := do
  match (Json.parse? (← row.get index ColumnValue.asText?)).bind decode with
  | some result => .ok result
  | none => .error (.malformed index)

/-- Rows in the order of some of their columns; rows that agree in these keep their order. -/
def orderBy (columns : List String) (rows : List Row) : List Row :=
  rows.mergeSort fun a b => (compare (columns.map a.column) (columns.map b.column)).isLE

end Row

/-! ## Functions -/

namespace Function

/-- The columns by which functions are asked for. -/
def columns : List String :=
  ["key", "display_name", "has_body", "is_virtual", "is_lambda", "stub", "signature", "overrides",
    "overridden_by", "origin"]

/-- The columns that are written of a function. -/
def writtenColumns : List String :=
  ["key", "position", "display_name", "has_body", "is_virtual", "is_lambda", "stub", "signature",
    "overrides", "overridden_by", "origin"]

/-- What is written of a function at a position.  Positions are stored as signed numbers. -/
def params (f : Function) (position : Nat) : List ColumnValue :=
  [.text f.key, .integer (signedWord position), .ofText? f.displayName, .ofBool f.hasBody,
    .ofBool f.isVirtual, .ofBool f.isLambda, .ofBool f.stub, .ofJson (f.signature.toJson .named),
    .ofJson (.strings f.overrides.toList), .ofJson (.strings f.overriddenBy.toList),
    .ofText? f.origin]

/-- The row of a function at a position. -/
def row (f : Function) (position : Nat) : Row := writtenColumns.zip (f.params position)

/-- A set of keys out of a list of them. -/
def keys? (j : Json) : Option (SortedSet FunctionKey) := (j.asList? Json.asString?).map .ofList

/-- Reads a function from the columns by which functions are asked for. -/
def ofRow (row : Row) : Except DatabaseError Function := do
  let key ← row.get 0 ColumnValue.asText?
  return {
    key
    displayName := ← row.get 1 (ColumnValue.asOption? ColumnValue.asText?)
    hasBody := ← row.get 2 ColumnValue.asBool?
    isVirtual := ← row.get 3 ColumnValue.asBool?
    isLambda := ← row.get 4 ColumnValue.asBool?
    stub := ← row.get 5 ColumnValue.asBool?
    signature := ← row.getJson 6 Signature.ofJson?
    overrides := ← row.getJson 7 keys?
    overriddenBy := ← row.getJson 8 keys?
    origin := ← row.get 9 (ColumnValue.asOption? ColumnValue.asText?) }

end Function

/-! ## Calls -/

namespace Call

/-- The columns of a call, as they are written and asked for. -/
def columns : List String := ["caller", "callee", "kind", "confidence", "origin"]

/-- The columns that tell calls apart. -/
def keyColumns : List String := ["caller", "callee", "kind", "confidence"]

/-- What is written of a call. -/
def params (c : Call) : List ColumnValue :=
  [.text c.caller, .text c.callee, .text c.kind.name, .text c.confidence.name, .ofText? c.origin]

/-- The row of a call. -/
def row (c : Call) : Row := columns.zip c.params

/-- Takes what a word stands for, out of the column at a position. -/
def wordAt {α : Type} (index : Nat) : Except UnknownWord α → Except DatabaseError α
  | .ok value => .ok value
  | .error e => .error (.unknownWord index e)

/-- Reads a call from its columns. -/
def ofRow (row : Row) : Except DatabaseError Call := do
  let caller ← row.get 0 ColumnValue.asText?
  let callee ← row.get 1 ColumnValue.asText?
  let kindWord ← row.get 2 ColumnValue.asText?
  let confidenceWord ← row.get 3 ColumnValue.asText?
  let kind ← wordAt 2 (EdgeKind.ofWord kindWord)
  let confidence ← wordAt 3 (Confidence.ofWord confidenceWord)
  return {
    caller, callee, kind, confidence
    origin := ← row.get 4 (ColumnValue.asOption? ColumnValue.asText?) }

end Call

/-! ## Diagnostics -/

namespace Diagnostic

/-- The columns that are written of a diagnostic; label and unit are there to choose by. -/
def writtenColumns : List String := ["label", "tu", "body"]

/-- The column by which diagnostics are asked for. -/
def columns : List String := ["body"]

/-- What is written of a diagnostic. -/
def params (d : Diagnostic) : List ColumnValue :=
  [.text d.finding.label, .ofText? d.unit, .ofJson d.toJson]

/-- The row of a diagnostic. -/
def row (d : Diagnostic) : Row := writtenColumns.zip d.params

/-- Reads a diagnostic from its text. -/
def ofRow (row : Row) : Except DatabaseError Diagnostic := row.getJson 0 Diagnostic.ofJson?

end Diagnostic

end CallGraphs
