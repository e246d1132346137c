import CallGraphs.Graph.Encoding
import CallGraphs.Json.Printer

/-!
# Listings

A listing holds all that a graph holds, sorted, so that graphs with the same
functions, edges and diagnostics have the same listing.  A graph can be made
from any listing.
-/

namespace CallGraphs

/-- The functions, calls and diagnostics of a graph. -/
structure Listing where
  functions : List Function := []
  calls : List Call := []
  diagnostics : List Diagnostic := []
deriving DecidableEq, Inhabited

namespace Listing

/-- The listing of a graph: functions by key, calls and diagnostics in their order. -/
def ofGraph (g : Graph) : Listing where
  functions := g.sortedFunctions
  calls := g.calls.mergeSort fun a b => (compare a b).isLE
  diagnostics := g.diagnostics.mergeSort fun a b => (compare a b).isLE

/-- The graph of a listing; ends of calls that it does not list are declared. -/
def toGraph (l : Listing) : Graph := .build l.functions l.calls l.diagnostics

/-- The listing as a record. -/
def toJson (l : Listing) : Json :=
  .object [
    ("functions", .list (·.toJson) l.functions),
    ("edges", .list (·.toJson) l.calls),
    ("diagnostics", .list (·.toJson) l.diagnostics)]

/-- Reads a listing. -/
def ofJson? (j : Json) : Option Listing := do
  let f ← j.fields? ["functions", "edges", "diagnostics"]
  some {
    functions := ← f.get "functions" (Json.asList? Function.ofJson?)
    calls := ← f.get "edges" (Json.asList? Call.ofJson?)
    diagnostics := ← f.list "diagnostics" Diagnostic.ofJson? }

/-- The text of the listing of a graph. -/
def text (g : Graph) : String := (ofGraph g).toJson.pretty ++ "\n"

end Listing

end CallGraphs
