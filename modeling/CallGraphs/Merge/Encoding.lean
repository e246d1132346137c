import CallGraphs.Json.Record
import CallGraphs.Merge.WholeProgram

/-!
# Reports of an analysis in JSON
-/

namespace CallGraphs

/-- The run of a fixpoint as a record. -/
def Flow.FixpointStats.toJson (s : FixpointStats) : Json :=
  .object [
    ("rounds", .natural s.rounds),
    ("slots", .natural s.slots),
    ("functions", .natural s.functions),
    ("totals", .list .natural s.totals),
    ("cap", .natural s.cap)]

/-- The pointer flow as a record. -/
def FlowReport.toJson (r : FlowReport) : Json :=
  .object [
    ("fixpoint", r.fixpoint.toJson),
    ("indirect_sites", .natural r.indirectSites),
    ("pointer_edges", .natural r.pointerEdges),
    ("unresolved_sites", .natural r.unresolvedSites)]

/-- A merge as a record. -/
def MergeStats.toJson (s : MergeStats) : Json :=
  .object [
    ("translation_units", .natural s.units),
    ("functions", .natural s.functions),
    ("edges", .natural s.edges),
    ("duplicates", .natural s.duplicates),
    ("odr_conflicts", .natural s.odrConflicts),
    ("flow", s.flow.toJson)]

end CallGraphs
