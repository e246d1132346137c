import CallGraphs.Analysis.Failure
import CallGraphs.Config.Files
import CallGraphs.Facts.Loading
import CallGraphs.Store.Location
import CallGraphs.Store.Query
import CallGraphs.Text.Quoted
import CallGraphs.Vocabulary

/-!
# Failures of commands
-/

namespace CallGraphs

namespace CommandLine

/-- Why a command failed. -/
inductive CommandError where
  | config (error : ConfigError)
  | format (error : UnknownWord)
  /-- A file pattern is none. -/
  | pattern (pattern : String)
  /-- There are no files to build from. -/
  | noFacts (patterns : List String)
  | facts (error : LoadError)
  | analysis (failure : Failure)
  /-- The graph cannot be written. -/
  | output (error : FileError)
  /-- There is no place for what is to be stored. -/
  | storePlace (error : FileError)
  /-- What is stored cannot be used. -/
  | storage (error : StoreError)
  /-- What is to be stored is not taken, or what is stored cannot be read. -/
  | contents (error : DatabaseError)
  /-- Nothing was built yet. -/
  | noGraph (database : String)
  | query (error : QueryError)
deriving DecidableEq, Inhabited, Repr

namespace CommandError

/-- The failure in words, and after it its cause if the words do not give it. -/
def message : CommandError → String
  | config e => e.message
  | format e => e.message
  | pattern text => "Invalid pattern: " ++ text
  | noFacts patterns => "no fact files matched " ++ quotedList patterns
  | facts e => e.message
  | analysis failure => failure.message
  | output e => e.message
  | storePlace e => "IO error: " ++ e.message ++ ": " ++ e.message
  | storage e => e.chain
  | contents e => e.message
  | noGraph database => "no call graph at " ++ database ++ " (run `cgcollect build` first)"
  | query e => e.message

end CommandError

end CommandLine

end CallGraphs
