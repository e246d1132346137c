import CallGraphs.Pattern.Like
import CallGraphs.Store.Rows

/-!
# Stored graphs

A store keeps a graph in three tables, one row for each function, call and
diagnostic.  One key has one function and one call is kept once, whatever units
it comes from.  The tables are changed by statements.  Statements may be carried
out inside a transaction, and are then kept or undone as a whole.
-/

namespace CallGraphs

/-! ## Tables -/

/-- A table that numbers its rows.  A number is not given again, even when its row is gone. -/
structure NumberedTable where
  rows : List Row := []
  /-- The last number that was given. -/
  last : Nat := 0
deriving DecidableEq, Inhabited, Repr

namespace NumberedTable

/-- The table with one more row, under the next number. -/
def append (t : NumberedTable) (row : Row) : NumberedTable where
  rows := t.rows ++ [("id", .integer (t.last + 1)) :: row]
  last := t.last + 1

/-- The table without its rows. -/
def clear (t : NumberedTable) : NumberedTable := { t with rows := [] }

end NumberedTable

/-- What a store holds. -/
structure StoredGraph where
  /-- The functions, in the order in which they were written. -/
  functions : List Row := []
  edges : NumberedTable := {}
  diagnostics : NumberedTable := {}
deriving DecidableEq, Inhabited, Repr

namespace StoredGraph

/-- Nothing stored. -/
def empty : StoredGraph := {}

/-! ## Writing -/

/-- Writes a function at a position, in place of the one with its key. -/
def insertFunction (s : StoredGraph) (f : Function) (position : Nat) : StoredGraph :=
  { s with
    functions := s.functions.filter (·.column "key" ≠ .text f.key) ++ [f.row position] }

/-- Writes a call unless it is there already. -/
def insertEdge (s : StoredGraph) (c : Call) : StoredGraph :=
  if s.edges.rows.any fun row =>
      Call.keyColumns.map row.column = Call.keyColumns.map c.row.column then s
  else { s with edges := s.edges.append c.row }

/-- Writes a diagnostic. -/
def insertDiagnostic (s : StoredGraph) (d : Diagnostic) : StoredGraph :=
  { s with diagnostics := s.diagnostics.append d.row }

/-! ## Reading -/

/-- Reads rows, all or none. -/
def readRows {α : Type} (columns : List String) (read : Row → Except DatabaseError α)
    (rows : List Row) : Except DatabaseError (List α) :=
  rows.mapM fun row => read (row.select columns)

/-- The function of a key. -/
def function? (s : StoredGraph) (key : FunctionKey) : Except DatabaseError (Option Function) :=
  match s.functions.find? (·.column "key" = .text key) with
  | some row => return some (← Function.ofRow (row.select Function.columns))
  | none => return none

/-- A column has a text that a search pattern matches. -/
def columnMatches (like : String → String → Bool) (pattern name : String) (row : Row) : Bool :=
  match row.column name with
  | .text value => like pattern value
  | _ => false

/-- The functions that a search pattern matches in their key or their readable name, by key.  Rows
that cannot be read are passed over. -/
def findFunctions (like : String → String → Bool) (s : StoredGraph) (pattern : String) :
    List Function :=
  let found := (Row.orderBy ["key"] s.functions).filter fun row =>
    columnMatches like pattern "key" row || columnMatches like pattern "display_name" row
  found.filterMap fun row => (Function.ofRow (row.select Function.columns)).toOption

/-- The calls whose rows have a text in a column, in the order of other columns. -/
def callsWhere (s : StoredGraph) (column value : String) (order : List String) :
    Except DatabaseError (List Call) :=
  readRows Call.columns Call.ofRow
    (Row.orderBy order (s.edges.rows.filter (·.column column = .text value)))

/-- The calls out of a function, by callee. -/
def callsFrom (s : StoredGraph) (key : FunctionKey) : Except DatabaseError (List Call) :=
  s.callsWhere "caller" key ["callee", "kind", "confidence"]

/-- The calls into a function, by caller. -/
def callsTo (s : StoredGraph) (key : FunctionKey) : Except DatabaseError (List Call) :=
  s.callsWhere "callee" key ["caller", "kind", "confidence"]

/-- The calls of one kind, by caller and callee.  Calls with the same ends come as the index of the
table has them, by confidence. -/
def callsOfKind (s : StoredGraph) (kind : EdgeKind) : Except DatabaseError (List Call) :=
  s.callsWhere "kind" kind.name ["caller", "callee", "confidence"]

/-- All diagnostics, in the order in which they were written. -/
def allDiagnostics (s : StoredGraph) : Except DatabaseError (List Diagnostic) :=
  readRows Diagnostic.columns Diagnostic.ofRow (Row.orderBy ["id"] s.diagnostics.rows)

/-- The diagnostics with one label, in the order in which they were written. -/
def diagnosticsLabelled (s : StoredGraph) (label : String) :
    Except DatabaseError (List Diagnostic) :=
  readRows Diagnostic.columns Diagnostic.ofRow
    (Row.orderBy ["id"] (s.diagnostics.rows.filter (·.column "label" = .text label)))

/-- The stored graph: functions by position, then calls and diagnostics in the order in which they
were written. -/
def load (s : StoredGraph) : Except DatabaseError Graph := do
  let functions ← readRows Function.columns Function.ofRow (Row.orderBy ["position"] s.functions)
  let calls ← readRows Call.columns Call.ofRow (Row.orderBy ["id"] s.edges.rows)
  let diagnostics ← s.allDiagnostics
  return .build functions calls diagnostics

end StoredGraph

/-! ## Counts -/

/-- How much a store holds. -/
structure StoreStats where
  functions : Nat
  defined : Nat
  edges : Nat
  mayEdges : Nat
  diagnostics : Nat
deriving DecidableEq, Inhabited, Repr

namespace StoreStats

/-- The counts as lines of text. -/
def text (s : StoreStats) : String :=
  "Database Statistics:\n" ++
  s!"  Functions: {s.functions} (defined: {s.defined})\n" ++
  s!"  Edges: {s.edges} (may: {s.mayEdges})\n" ++
  s!"  Diagnostics: {s.diagnostics}\n"

end StoreStats

/-- The counts of a stored graph. -/
def StoredGraph.stats (s : StoredGraph) : StoreStats where
  functions := s.functions.length
  defined := s.functions.countP (·.column "has_body" = .integer 1)
  edges := s.edges.rows.length
  mayEdges := s.edges.rows.countP (·.column "confidence" = .text "may")
  diagnostics := s.diagnostics.rows.length

/-! ## Statements -/

/-- A statement that changes a store. -/
inductive Statement where
  /-- Opens a transaction. -/
  | begin
  /-- Ends the transaction and keeps what it did. -/
  | commit
  /-- Ends the transaction and undoes what it did. -/
  | rollback
  | deleteFunctions
  | deleteEdges
  | deleteDiagnostics
  | insertFunction (function : Function) (position : Nat)
  | insertEdge (call : Call)
  | insertDiagnostic (diagnostic : Diagnostic)
deriving DecidableEq, Inhabited

namespace Statement

/-- What the statement makes of the tables.  Transactions do not change them by themselves. -/
def apply (s : StoredGraph) : Statement → StoredGraph
  | begin | commit | rollback => s
  | deleteFunctions => { s with functions := [] }
  | deleteEdges => { s with edges := s.edges.clear }
  | deleteDiagnostics => { s with diagnostics := s.diagnostics.clear }
  | insertFunction f position => s.insertFunction f position
  | insertEdge c => s.insertEdge c
  | insertDiagnostic d => s.insertDiagnostic d

/-- Deletes all that is stored. -/
def clearAll : List Statement := [deleteDiagnostics, deleteEdges, deleteFunctions]

/-- Puts a graph in place of all that is stored: its functions at their node numbers, its edges by
key, its diagnostics. -/
def write (g : Graph) : List Statement :=
  clearAll ++ g.nodes.zipIdx.map (fun (f, position) => insertFunction f position) ++
    g.calls.map insertEdge ++ g.diagnostics.map insertDiagnostic

end Statement

/-! ## Stores -/

/-- A stored graph, and while a transaction is open the graph as it was before. -/
structure Store where
  graph : StoredGraph := {}
  checkpoint : Option StoredGraph := none
deriving DecidableEq, Inhabited

/-- Statements that are not carried out, whatever they would do, and the errors they have
instead. -/
abbrev Refusals := Store → Statement → Option DatabaseError

namespace Store

/-- Nothing stored, no transaction open. -/
def empty : Store := {}

/-- The store after a statement.  Transactions are not nested, and only an open one is ended. -/
def run (s : Store) : Statement → Except DatabaseError Store
  | .begin =>
    match s.checkpoint with
    | none => .ok { s with checkpoint := some s.graph }
    | some _ => .error .nested
  | .commit =>
    match s.checkpoint with
    | some _ => .ok { s with checkpoint := none }
    | none => .error .commitWithout
  | .rollback =>
    match s.checkpoint with
    | some before => .ok { graph := before, checkpoint := none }
    | none => .error .rollbackWithout
  | statement => .ok { s with graph := statement.apply s.graph }

/-- Carries out a statement, unless it is refused. -/
def execute (refuses : Refusals) (s : Store) (statement : Statement) :
    Except DatabaseError Store :=
  match refuses s statement with
  | some e => .error e
  | none => s.run statement

/-- Carries out statements up to the first that fails, if one does. -/
def executeAll (refuses : Refusals) (s : Store) : List Statement → Store × Except DatabaseError Unit
  | [] => (s, .ok ())
  | statement :: rest =>
    match s.execute refuses statement with
    | .ok s => s.executeAll refuses rest
    | .error e => (s, .error e)

/-- Replaces what is stored by a graph, in a transaction of its own.  When a statement fails, the
transaction is undone. -/
def save (refuses : Refusals) (s : Store) (g : Graph) : Store × Except DatabaseError Unit :=
  match s.execute refuses .begin with
  | .error e => (s, .error e)
  | .ok s =>
    match s.executeAll refuses (Statement.write g) with
    | (s, .ok ()) => s.executeAll refuses [.commit]
    | (s, .error e) =>
      match s.execute refuses .rollback with
      | .ok s => (s, .error e)
      | .error e => (s, .error e)

end Store

end CallGraphs
