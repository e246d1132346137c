import CallGraphs.Graph.Basic

/-!
# Graphviz

A graph as a digraph: a statement for every function and one for every edge,
both sorted by key.  The colour of an edge tells its kind and its style its
confidence.
-/

namespace CallGraphs

namespace Dot

/-- A text with another text in place of every occurrence of a character. -/
def replaced (c : Char) (other text : List Char) : List Char :=
  text.flatMap fun d => if d = c then other else [d]

/-- A name in quotes: first its backslashes are doubled, then its quotes get one each. -/
def quote (name : String) : String :=
  let doubled := replaced '\\' ['\\', '\\'] name.toList
  "\"" ++ String.ofList (replaced '"' ['\\', '"'] doubled) ++ "\""

/-- The colour of a kind of edge. -/
def colour : EdgeKind → String
  | .direct => "black"
  | .virtual => "blue"
  | .pointer => "darkgreen"
  | .memberPointer => "purple"
  | .implicit => "gray40"

/-- The line style of a confidence. -/
def style : Confidence → String
  | .definite => "solid"
  | .may => "dashed"

/-- The statement for a function; one with a body is a box. -/
def nodeLine (f : Function) : String :=
  let shape := if f.hasBody then "box" else "ellipse"
  "  " ++ quote f.key ++ " [label=" ++ quote f.name ++ ", shape=" ++ shape ++ "];\n"

/-- The statement for an edge. -/
def edgeLine (c : Call) : String :=
  "  " ++ quote c.caller ++ " -> " ++ quote c.callee ++ " [color=" ++ colour c.kind ++
    ", style=" ++ style c.confidence ++ ", label=\"" ++ c.kind.name ++ "\"];\n"

/-- The text of a graph. -/
def text (g : Graph) : String :=
  "digraph callgraph \x7b\n" ++
  String.join (g.sortedFunctions.map nodeLine) ++
  String.join (g.sortedCalls.map edgeLine) ++
  "\x7d\n"

end Dot

end CallGraphs
