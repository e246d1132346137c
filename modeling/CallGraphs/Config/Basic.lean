import CallGraphs.Analysis.Options
import CallGraphs.Config.Toml.Parser
import CallGraphs.Config.Toml.Quoted
import CallGraphs.Formats

/-!
# Configuration

What a configuration file settles: the options of the analysis, and where its
results go.  `Config.text?` writes a configuration and `Config.parse?` reads
one; in a file everything may be left out.
-/

namespace CallGraphs

/-- Where the results of an analysis go. -/
structure OutputOptions where
  format : Format := .metacg
  /-- The file for the graph. -/
  path : Option String := none
  /-- The file that later queries read. -/
  database : Option String := none
deriving DecidableEq, Inhabited, Repr

namespace OutputOptions

/-- The options as a record. -/
def toJson (o : OutputOptions) : Json :=
  .object [
    ("format", .string o.format.name),
    ("path", .option .string o.path),
    ("database", .option .string o.database)]

/-- Reads options; each has a default. -/
def read? (dialect : Dialect) (j : Json) : Option OutputOptions := do
  let f ← j.fieldsIn? dialect ["format", "path", "database"]
  some {
    format := ← f.getD "format" .metacg (Json.wordIn? dialect Format.words)
    path := ← f.option "path" Json.asString?
    database := ← f.option "database" Json.asString? }

end OutputOptions

/-- A configuration. -/
structure Config where
  analysis : Options := {}
  output : OutputOptions := {}
deriving DecidableEq, Inhabited, Repr

namespace Config

/-- The configuration as a record. -/
def toJson (c : Config) : Json :=
  .object [("analysis", c.analysis.toJson), ("output", c.output.toJson)]

/-- Reads a configuration. -/
def read? (dialect : Dialect) (j : Json) : Option Config := do
  let f ← j.fieldsIn? dialect ["analysis", "output"]
  some {
    analysis := ← f.getD "analysis" {} (Options.read? dialect)
    output := ← f.getD "output" {} (OutputOptions.read? dialect) }

/-- Reads a configuration in JSON. -/
def ofJson? : Json → Option Config := read? .plain

/-- The configuration in the text of a file. -/
def parse? (text : String) : Option Config := do read? .table (← Toml.parse? text)

/-! ## Writing -/

/-- A key and its value on a line. -/
def line (key value : String) : String := key ++ " = " ++ value ++ "\n"

/-- A key and its value, if there is one. -/
def optionalLine (key : String) : Option String → String
  | some value => line key value
  | none => ""

/-- The text of a configuration file; none if a number is too large for it. -/
def text? (c : Config) : Option String :=
  if (c.analysis.maxIterations.toList ++ c.analysis.threads.toList).all (· ≤ Toml.maxNumber) then
    some <|
      "[analysis]\n" ++
      line "return_flow" (Toml.quoted c.analysis.returnFlow.name) ++
      line "capture_ctors_dtors" (if c.analysis.captureLifetimes then "true" else "false") ++
      optionalLine "max_iterations" (c.analysis.maxIterations.map toString) ++
      optionalLine "threads" (c.analysis.threads.map toString) ++
      "\n[output]\n" ++
      line "format" (Toml.quoted c.output.format.name) ++
      optionalLine "path" (c.output.path.map Toml.quoted) ++
      optionalLine "database" (c.output.database.map Toml.quoted)
  else none

end Config

end CallGraphs
