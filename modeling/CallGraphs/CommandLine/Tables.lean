import CallGraphs.Store.Query
import CallGraphs.Text.Table

/-!
# Tables of results

The tables that commands print.  A table without rows is not drawn at all.
-/

namespace CallGraphs

/-- The mark of a kind of edge in listings. -/
def EdgeKind.mark : EdgeKind → String
  | direct => "→"
  | virtual => "⇢"
  | pointer => "*"
  | memberPointer => "->*"
  | implicit => "~"

/-- The lines of a table, if it has rows. -/
def drawnLines (headings : List String) (rows : List (List String)) : List String :=
  if rows.isEmpty then [] else (TextTable.mk headings rows).lines

/-- Labels and their values. -/
def metricLines (metrics : List (String × String)) : List String :=
  drawnLines ["Metric", "Value"] (metrics.map fun (label, value) => [label, value])

/-- The functions that a walk came to, one row each. -/
def hitLines (hits : List CallHit) : List String :=
  drawnLines ["Function", "Depth", "Kind", "Confidence"] <|
    hits.map fun hit =>
      [hit.function, toString hit.depth, hit.kind.mark ++ " " ++ hit.kind.name,
        hit.confidence.name]

end CallGraphs
