import CallGraphs.Files.Tree
import CallGraphs.Graph.Encoding
import CallGraphs.Json.Parser
import CallGraphs.Json.Printer
import CallGraphs.Store.Query

/-!
# Stored graphs in JSON

How a stored graph is kept in a file, and how what a walk found is shown.
-/

namespace CallGraphs

namespace ColumnValue

/-- The value in JSON. -/
def toJson : ColumnValue → Json
  | null => .null
  | integer (.ofNat n) => .natural n
  | integer value => .decimal (toString value)
  | text value => .string value

/-- Reads a value. -/
def ofJson? : Json → Option ColumnValue
  | .null => some null
  | .natural n => some (integer n)
  | .decimal literal => literal.toInt?.map integer
  | .string value => some (text value)
  | _ => none

end ColumnValue

namespace Row

/-- A row as a record. -/
def toJson (row : Row) : Json := .object (row.map fun (name, value) => (name, value.toJson))

/-- Reads a row. -/
def ofJson? : Json → Option Row
  | .object members => members.mapM fun (name, value) => (ColumnValue.ofJson? value).map (name, ·)
  | _ => none

end Row

namespace NumberedTable

/-- A table as a record. -/
def toJson (t : NumberedTable) : Json :=
  .object [("rows", .list Row.toJson t.rows), ("last", .natural t.last)]

/-- Reads a table. -/
def ofJson? (j : Json) : Option NumberedTable := do
  let f ← j.fields? ["rows", "last"]
  some { rows := ← f.list "rows" Row.ofJson?, last := ← f.get "last" Json.asCount? }

end NumberedTable

namespace StoredGraph

/-- A stored graph as a record. -/
def toJson (s : StoredGraph) : Json :=
  .object [
    ("functions", .list Row.toJson s.functions),
    ("edges", s.edges.toJson),
    ("diagnostics", s.diagnostics.toJson)]

/-- Reads a stored graph. -/
def ofJson? (j : Json) : Option StoredGraph := do
  let f ← j.fields? ["functions", "edges", "diagnostics"]
  some {
    functions := ← f.list "functions" Row.ofJson?
    edges := ← f.get "edges" NumberedTable.ofJson?
    diagnostics := ← f.get "diagnostics" NumberedTable.ofJson? }

/-- The content of the file that keeps a graph. -/
def toContent (s : StoredGraph) : FileContent := .data s.toJson.compact

/-- The graph that a file keeps.  A file with a text in it keeps none, unless the text is too
short to be anything. -/
def ofContent? : FileContent → Option StoredGraph
  | .data content => (Json.parse? content).bind ofJson?
  | .text content => if content.utf8ByteSize ≤ 1 then some .empty else none

end StoredGraph

namespace CallHit

/-- What a walk came to, as a record. -/
def toJson (hit : CallHit) : Json :=
  .object [
    ("function", .string hit.function),
    ("depth", .natural hit.depth),
    ("kind", hit.kind.toJson),
    ("confidence", hit.confidence.toJson)]

end CallHit

end CallGraphs
