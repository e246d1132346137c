import CallGraphs.Graph.Encoding
import CallGraphs.Json.Printer

/-!
# MetaCG documents

A graph as a MetaCG document of version 2: one entry for every function under
its key, with the functions it calls and those that call it, and what is known
of it.  The kinds and confidences of its edges go to its metadata, which
readers skip if they do not know it.
-/

namespace CallGraphs

namespace MetaCg

/-- The version of the format. -/
def formatVersion : String := "2.0"

/-- The name under which documents are generated. -/
def generatorName : String := "cgcollect"

/-- The version under which documents are generated. -/
def generatorVersion : String := "0.1.0"

/-- An edge of a function in its metadata. -/
def edgeKind (e : Edge) : Json :=
  .object [("confidence", e.confidence.toJson), ("kind", e.kind.toJson)]

/-- The kinds and confidences of the edges from a function to one callee, sorted by their text. -/
def edgeKindsTo (g : Graph) (id : NodeId) (callee : FunctionKey) : Json :=
  .array (((g.edgesFrom id).filter (fun e => g.keyOf e.callee = callee)).map edgeKind
    |>.mergeSort fun a b => (compare a.compact b.compact).isLE)

/-- The kinds and confidences of the edges from a function, by callee. -/
def edgeKinds (g : Graph) (key : FunctionKey) : List (String × Json) :=
  match g.nodeId? key with
  | some id => (g.callees key).toList.map fun callee => (callee, edgeKindsTo g id callee)
  | none => []

/-- The metadata of a function: where it comes from, and its edges if it has any. -/
def metadata (g : Graph) (f : Function) : Json :=
  let file := match f.origin with
    | some origin =>
      [("fileProperties",
        Json.object [("origin", .string origin), ("systemInclude", .bool false)])]
    | none => []
  let edges := match edgeKinds g f.key with
    | [] => []
    | kinds => [("edgeKinds", Json.object kinds)]
  .object (edges ++ file)

/-- The entry of a function. -/
def entry (g : Graph) (f : Function) : Json :=
  .object [
    ("callees", .strings (g.callees f.key).toList),
    ("callers", .strings (g.callers f.key).toList),
    ("doesOverride", .bool f.doesOverride),
    ("hasBody", .bool f.hasBody),
    ("isVirtual", .bool f.isVirtual),
    ("meta", metadata g f),
    ("overriddenBy", .strings f.overriddenBy.toList),
    ("overrides", .strings f.overrides.toList)]

/-- The document of a graph. -/
def document (g : Graph) : Json :=
  .object [
    ("_CG", .object (g.sortedFunctions.map fun f => (f.key, entry g f))),
    ("_MetaCG", .object [
      ("generator", .object [
        ("name", .string generatorName),
        ("version", .string generatorVersion)]),
      ("version", .string formatVersion)])]

/-- The text of the document of a graph. -/
def text (g : Graph) : String := (document g).pretty ++ "\n"

end MetaCg

end CallGraphs
