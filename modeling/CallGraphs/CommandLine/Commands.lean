import CallGraphs.CommandLine.Failure
import CallGraphs.CommandLine.Invocation
import CallGraphs.CommandLine.Output
import CallGraphs.Merge.Encoding
import CallGraphs.Store.Encoding
import CallGraphs.Text.Duration

/-!
# Commands

What each command does, on any host.  A command that fails leaves what it has
done until then.
-/

namespace CallGraphs

namespace CommandLine

variable {m : Type → Type} [Monad m] [Host m]

/-- A command that may fail. -/
abbrev Run (m : Type → Type) := ExceptT CommandError m

/-- How results are printed. -/
structure Style where
  /-- As objects. -/
  json : Bool := false
  /-- Without what only a reader needs. -/
  quiet : Bool := false
deriving DecidableEq, Inhabited, Repr

/-- Does something on the host, whose errors become failures of the command. -/
def attempt {α ε : Type} (wrap : ε → CommandError) (action : m (Except ε α)) : Run m α :=
  ExceptT.mk do
    match ← action with
    | .ok v => return .ok v
    | .error e => return .error (wrap e)

/-! ## Stored graphs -/

/-- The file that a query reads. -/
def databasePath (given : Option String) (config : Config) : String :=
  (given <|> config.output.database).getD (Config.databaseIn ".")

/-- What a location holds; a file that holds nothing yet is made or filled if that may be done. -/
def openLocation (name : String) : StoreLocation → Run m StoredGraph
  | .nowhere => return .empty
  | .file path access => do
    let fresh : Run m StoredGraph := do
      attempt (fun _ => .storage (.cannotOpen name)) (Host.write path StoredGraph.empty.toContent)
      return .empty
    match ← Host.read (m := m) path with
    | .error .notFound =>
      if access = .creating then fresh else throw (.storage (.cannotOpen name))
    | .error _ => throw (.storage (.cannotOpen name))
    | .ok content =>
      match StoredGraph.ofContent? content, content with
      | none, _ => throw (.storage .notAStore)
      | some graph, .data _ => return graph
      | some _, .text _ => if access = .readOnly then throw (.storage .readOnly) else fresh

/-- The location that a name stands for, and what it holds.  The directory of the name is made if
need be, whatever the name stands for. -/
def openStore (name : String) : Run m (StoreLocation × Store) := do
  let directory := Path.directory name
  if !directory.isEmpty then
    attempt .storePlace (Host.makeDirectories directory)
  let location ← attempt .storage (pure (StoreLocation.read name))
  return (location, { graph := ← openLocation name location })

/-- The graph stored in a file that must be there. -/
def openExisting (name : String) : Run m StoredGraph := do
  if ← Host.contains (m := m) name then return (← openStore name).2.graph
  else throw (.noGraph name)

/-- Keeps a graph at a location. -/
def keep (name : String) (graph : StoredGraph) : StoreLocation → Run m Unit
  | .nowhere => return ()
  | .file _ .readOnly => throw (.storage .readOnly)
  | .file path _ =>
    attempt (fun _ => .storage (.cannotOpen name)) (Host.write path graph.toContent)

/-- Stores a graph in place of the one there. -/
def saveGraph (name : String) (g : Graph) : Run m Unit := do
  let (location, store) ← openStore name
  let (store, saved) := store.save (fun _ _ => none) g
  attempt .contents (pure saved)
  keep name store.graph location

/-! ## Building -/

/-- What a build does, after configuration and arguments. -/
structure BuildSettings where
  options : Options
  format : Format
  output : Option String
  database : String
deriving DecidableEq, Inhabited, Repr

namespace BuildSettings

/-- The settings of a request; what the request leaves open is for the configuration to say. -/
def ofRequest (config : Config) (request : BuildRequest) : Except UnknownWord BuildSettings := do
  let format ← match request.format with
    | some word => Format.ofWord word
    | none => pure config.output.format
  return {
    options := {
      returnFlow := if request.trackReturns then .track else config.analysis.returnFlow
      captureLifetimes := !request.skipLifetimes && config.analysis.captureLifetimes
      maxIterations := request.maxIterations <|> config.analysis.maxIterations
      threads := request.threads <|> config.analysis.threads }
    format
    output := request.output <|> config.output.path
    database := databasePath request.database config }

/-- The file for the graph. -/
def outputPath (s : BuildSettings) : String :=
  s.output.getD ("callgraph." ++ s.format.extension)

end BuildSettings

/-- The graph of a whole program.  The text of a body stands for its digest. -/
def analyseProgram (options : Options) (units : List TranslationUnit) :
    Except Failure (Graph × MergeStats) := do
  (Merge.run id options false (← (UnitGraph.analyseAll options false units).2)).2

/-- Writes a graph to a file, or prints it when the name of the file is a dash. -/
def writeGraph (path text : String) : Run m Unit :=
  if path = "-" then ExceptT.lift (Host.print text)
  else attempt .output (Host.writeText path text)

/-- What a reader is told of a build. -/
def buildLines (s : BuildSettings) (units milliseconds : Nat) (merge : MergeStats)
    (graph : GraphStats) : List String :=
  ["",
   "✅ Complete in " ++ durationText milliseconds,
   s!"  📄 {units}  📦 {graph.functions}  🔗 {graph.totalEdges}",
   "📄 Graph: " ++ s.outputPath ++ " (" ++ s.format.name ++ ")",
   "🗄️ Database: " ++ s.database,
   "ℹ️ Pointer flow: " ++ merge.flow.text] ++
  if merge.duplicates = 0 then []
  else ["ℹ️ Duplicate definitions: " ++ toString merge.duplicates]

/-- What a reader is warned of after a build. -/
def buildWarning (merge : MergeStats) (graph : GraphStats) : Option String :=
  if merge.odrConflicts = 0 && graph.unresolvedCalls = 0 then none
  else some (s!"{merge.odrConflicts} ODR conflicts, {graph.unresolvedCalls} unresolved " ++
    "indirect calls (see `cgcollect diagnostics`)")

/-- A build as a record. -/
def buildJson (s : BuildSettings) (merge : MergeStats) (graph : GraphStats) : Json :=
  .object [
    ("output", .string s.outputPath),
    ("database", .string s.database),
    ("merge", merge.toJson),
    ("graph", graph.toJson)]

/-- The warning after a build, apart from the results. -/
def warn : Option String → m Unit
  | some warning => Host.complain ("⚠️ " ++ warning ++ "\n")
  | none => pure ()

/-- Builds the graph of a program from fact files. -/
def build (patterns : List String) (s : BuildSettings) (style : Style) : Run m Unit := do
  let started ← ExceptT.lift Host.clock
  let paths ← attempt .pattern (Files.expand patterns)
  if paths.isEmpty then throw (.noFacts patterns)
  if !style.quiet then
    ExceptT.lift (printLine
      s!"🚀 Building call graph from {paths.length} translation units")
  let units ← attempt .facts (Facts.loadAll paths)
  let (g, merge) ← attempt .analysis (pure (analyseProgram s.options units))
  writeGraph s.outputPath (s.format.text g)
  saveGraph s.database g
  let finished ← ExceptT.lift Host.clock
  if style.json then
    ExceptT.lift (printLine (successJson "build" (buildJson s merge g.stats)).pretty)
  else if !style.quiet then
    ExceptT.lift (printLines
      (buildLines s paths.length (finished - started) merge g.stats))
    ExceptT.lift (warn (buildWarning merge g.stats))

/-! ## Queries -/

/-- Prints the functions that a walk from a function comes to. -/
def walk (direction : Direction) (database function : String) (depth : Nat) (definite : Bool)
    (style : Style) : Run m Unit := do
  let graph ← openExisting database
  let target ← attempt .query (pure (graph.resolve Like.isMatch function))
  let hits ← attempt .query (pure (graph.walk direction definite target.key depth))
  let (name, title) := match direction with
    | .incoming => ("callers", "⬆️ Callers of ")
    | .outgoing => ("callees", "⬇️ Callees of ")
  let data := .object [("function", .string target.key), (name, .list (·.toJson) hits)]
  ExceptT.lift (printResult style.json name data
    (printHits (title ++ target.key ++ s!" (depth {depth})") hits))

/-- Prints the functions reached from a function. -/
def reach (database entry : String) (definite : Bool) (style : Style) : Run m Unit := do
  let graph ← openExisting database
  let target ← attempt .query (pure (graph.resolve Like.isMatch entry))
  let reached ← attempt .query (pure (graph.reachable definite target.key))
  let data := .object [("entry", .string target.key), ("reachable", .strings reached.toList)]
  ExceptT.lift (printResult style.json "reach" data do
    printSection ("🔗 Reachable from " ++ target.key ++ s!" ({reached.toList.length})")
    printLines (reached.toList.map ("  " ++ ·)))

/-- The functions that a search finds. -/
def found (graph : StoredGraph) (pattern : String) (regex : Bool) (limit : Nat) :
    Except QueryError (List Function) :=
  if regex then graph.searchRegex Like.isMatch pattern limit
  else .ok ((graph.search Like.isMatch pattern limit).map (·.function))

/-- Prints the functions that a search finds. -/
def find (database pattern : String) (regex : Bool) (limit : Nat) (style : Style) :
    Run m Unit := do
  let graph ← openExisting database
  let functions ← attempt .query (pure (found graph pattern regex limit))
  let data := .object [("functions", .list (·.toJson) functions)]
  ExceptT.lift (printResult style.json "find" data do
    printSection ("🔍 Functions matching " ++ pattern)
    printLines (if functions.isEmpty then ["  none"] else
      functions.map fun f => "  " ++ f.key ++ (if f.isExternal then " (external)" else "")))

/-- The counts of a graph with their labels. -/
def statsMetrics (s : GraphStats) : List (String × String) :=
  [("Functions", toString s.functions),
   ("Defined", toString s.defined),
   ("Stubs", toString s.stubs),
   ("Virtual", toString s.virtualFunctions),
   ("Edges", toString s.totalEdges),
   ("Definite edges", toString s.definiteEdges),
   ("May edges", toString s.mayEdges)] ++
  s.edgesByKind.map (fun (kind, count) => ("  " ++ kind.name, toString count)) ++
  [("Diagnostics", toString s.diagnostics),
   ("Unresolved calls", toString s.unresolvedCalls)]

/-- Prints the counts of the stored graph. -/
def stats (database : String) (style : Style) : Run m Unit := do
  let graph ← openExisting database
  let s := (← attempt .contents (pure graph.load)).stats
  ExceptT.lift (printResult style.json "stats" s.toJson do
    printSection ("📊 Call graph (" ++ database ++ ")")
    printLines (metricLines (statsMetrics s)))

/-- Prints the stored diagnostics, all or those with one label. -/
def diagnostics (database : String) (label : Option String) (style : Style) : Run m Unit := do
  let graph ← openExisting database
  let listed ← attempt .contents
    (pure (label.elim graph.allDiagnostics graph.diagnosticsLabelled))
  let data := .object [("diagnostics", .list (·.toJson) listed)]
  ExceptT.lift (printResult style.json "diagnostics" data do
    printSection s!"⚠️ Diagnostics ({listed.length})"
    printLines (listed.map diagnosticLine))

/-! ## Configurations -/

/-- The configuration that a new project gets. -/
def initialConfig : Config where
  output := {
    format := .metacg
    path := some "callgraph.json"
    database := some (Config.databaseIn ".") }

/-- Writes a configuration, and makes version control pass over what will be stored. -/
def init (path : String) (force : Bool) (style : Style) : Run m Unit := do
  let directory := Path.directory path
  attempt .config (Config.write path initialConfig force)
  attempt .config (Config.ensureIgnored (if directory.isEmpty then "." else directory))
  ExceptT.lift (printResult style.json "init" (.object [("config", .string path)])
    (printLine ("✅ Wrote " ++ bold path)))

end CommandLine

end CallGraphs
