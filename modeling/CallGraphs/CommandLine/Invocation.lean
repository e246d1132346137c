import CallGraphs.CommandLine.Arguments

/-!
# Invocations

The commands, their options, and which of them some arguments ask for.
-/

namespace CallGraphs

namespace CommandLine

/-- What a build is asked for. -/
structure BuildRequest where
  /-- Fact files and patterns, in the order of the merge. -/
  facts : List String
  output : Option String := none
  format : Option String := none
  database : Option String := none
  trackReturns : Bool := false
  skipLifetimes : Bool := false
  threads : Option Nat := none
  maxIterations : Option Nat := none
deriving DecidableEq, Inhabited, Repr

/-- A command. -/
inductive Command where
  /-- Builds the graph of a program. -/
  | build (request : BuildRequest)
  /-- Finds the functions that call a function. -/
  | callers (function : String) (depth : Nat) (definite : Bool)
  /-- Finds the functions that a function calls. -/
  | callees (function : String) (depth : Nat) (definite : Bool)
  /-- Lists the functions reached from a function. -/
  | reach (entry : String) (definite : Bool)
  /-- Searches functions by name. -/
  | find (pattern : String) (regex : Bool) (limit : Nat)
  /-- Counts what is in the graph. -/
  | stats
  /-- Lists the diagnostics. -/
  | diagnostics (label : Option String)
  /-- Writes a configuration. -/
  | init (force : Bool)
deriving DecidableEq, Inhabited, Repr

/-- A command with the settings that all commands have. -/
structure Invocation where
  verbose : Bool := false
  quiet : Bool := false
  json : Bool := false
  config : Option String := none
  /-- The stored graph that a query is for. -/
  database : Option String := none
  command : Command
deriving DecidableEq, Inhabited, Repr

/-! ## Options -/

/-- The options that all commands have. -/
def commonOptions : List OptionSpec :=
  [{ name := "verbose", letter := 'v', about := "Enable verbose logging" },
   { name := "quiet", letter := 'q', about := "Suppress progress bars and decorations" },
   { name := "json", about := "Emit machine-readable JSON instead of human output" },
   { name := "config", letter := 'c', value := some .path, about := "Path to the config file" }]

/-- The option that asks for help. -/
def helpOption : OptionSpec := { name := "help", letter := 'h', about := "Print help" }

/-- The option that asks for the version. -/
def versionOption : OptionSpec := { name := "version", letter := 'V', about := "Print version" }

/-- The option for the stored graph. -/
def databaseOption : OptionSpec :=
  { name := "database", letter := 'd', value := some .path, about := "Path to the database file" }

/-- The option for definite edges only. -/
def definiteOption : OptionSpec := { name := "definite", about := "Follow only definite edges" }

/-- The options of a walk to the callers or the callees. -/
def walkOptions (ends : String) : List OptionSpec :=
  [{ name := "depth", value := some .count, preset := "1"
     about := "Maximum depth for transitive " ++ ends },
   definiteOption, databaseOption]

/-- The options of a build. -/
def buildOptions : List OptionSpec :=
  [{ name := "output", letter := 'o', value := some .path
     about := "Graph output file (`-` for stdout)" },
   { name := "format", letter := 'f', value := some .text
     about := "Output format (metacg, json, dot)" },
   databaseOption,
   { name := "track-returns", about := "Track function pointers through return values" },
   { name := "no-ctors-dtors", about := "Skip implicit constructor/destructor edges" },
   { name := "threads", letter := 'j', value := some .count
     about := "Worker threads for per-unit analysis" },
   { name := "max-iterations", value := some .count, about := "Pointer-flow iteration cap" }]

/-- The options of a search. -/
def findOptions : List OptionSpec :=
  [{ name := "regex", about := "Treat the pattern as a regular expression" },
   { name := "limit", letter := 'l', value := some .count, preset := "20"
     about := "Maximum number of results" },
   databaseOption]

/-- The option for diagnostics of one kind. -/
def kindOption : OptionSpec :=
  { name := "kind", letter := 'k', value := some .text
    about := "Only one kind (malformed-fact, unresolved-indirect-call, odr-conflict)" }

/-! ## Forms -/

/-- What a command has to be given beside options. -/
structure OtherSpec where
  name : String
  about : String
  /-- It may be given more than once. -/
  repeats : Bool := false
deriving DecidableEq, Inhabited, Repr

/-- The form of a command. -/
structure CommandSpec where
  name : String
  about : String
  /-- Its own options. -/
  options : List OptionSpec
  other : Option OtherSpec := none
deriving DecidableEq, Inhabited, Repr

namespace CommandSpec

/-- How many arguments other than options a command may have, if there is a limit. -/
def most (spec : CommandSpec) : Option Nat :=
  match spec.other with
  | none => some 0
  | some other => if other.repeats then none else some 1

end CommandSpec

/-- What a query on a function has to be given. -/
def functionOther : OtherSpec := { name := "FUNCTION", about := "Canonical key or display name" }

/-- The commands. -/
def commandSpecs : List CommandSpec :=
  [{ name := "build", about := "Build the whole-program call graph from fact files"
     options := buildOptions
     other := some { name := "FACTS", about := "Fact files or glob patterns, in merge order"
                     repeats := true } },
   { name := "callers", about := "Find all callers of a function"
     options := walkOptions "callers", other := functionOther },
   { name := "callees", about := "Find all callees of a function"
     options := walkOptions "callees", other := functionOther },
   { name := "reach", about := "List every function reachable from an entry point"
     options := [definiteOption, databaseOption]
     other := some { name := "ENTRY", about := "Entry function" } },
   { name := "find", about := "Search functions by name"
     options := findOptions
     other := some { name := "PATTERN"
                     about := "LIKE pattern (`%` wildcard), or a regex with --regex" } },
   { name := "stats", about := "Show statistics about the stored graph"
     options := [databaseOption] },
   { name := "diagnostics", about := "List recorded diagnostics"
     options := [kindOption, databaseOption] },
   { name := "init", about := "Write a default cgcollect.toml"
     options := [{ name := "force", about := "Overwrite an existing config" }] }]

/-- The form of the command of a name. -/
def commandSpec? (name : String) : Option CommandSpec := commandSpecs.find? (·.name = name)

/-! ## Commands -/

/-- What a build is asked for. -/
def buildRequest (given : Matches) : BuildRequest where
  facts := given.others
  output := given.value? "output"
  format := given.value? "format"
  database := given.value? "database"
  trackReturns := given.has "track-returns"
  skipLifetimes := given.has "no-ctors-dtors"
  threads := given.count? "threads"
  maxIterations := given.count? "max-iterations"

/-- The command of a name with what it was given. -/
def readCommand (name : String) (given : Matches) : Option Command :=
  let definite := given.has "definite"
  let depth := (given.count? "depth").getD 1
  let other := given.others.headD ""
  match name with
  | "build" => some (.build (buildRequest given))
  | "callers" => some (.callers other depth definite)
  | "callees" => some (.callees other depth definite)
  | "reach" => some (.reach other definite)
  | "find" => some (.find other (given.has "regex") ((given.count? "limit").getD 20))
  | "stats" => some .stats
  | "diagnostics" => some (.diagnostics (given.value? "kind"))
  | "init" => some (.init (given.has "force"))
  | _ => none

/-- What is refused when help is asked for as if it were a command: help is given on the program,
on one command and on help itself. -/
def readHelp : List String → Refusal
  | [] => .help (.program false)
  | [name] =>
    if name = "help" || (commandSpec? name).isSome then .help (.command name) else .usage
  | _ => .usage

/-- The invocation that arguments ask for; what is given after the name of a command wins. -/
def Invocation.read (arguments : List String) : Except Refusal Invocation := do
  let leading := commonOptions ++ [helpOption, versionOption]
  match ← readArguments leading true none {} arguments with
  | (_, none) => .error .usage
  | (before, some (name, rest)) =>
    match commandSpec? name with
    | none => .error (if name = "help" then readHelp rest else .usage)
    | some spec =>
      let known := commonOptions ++ [helpOption] ++ spec.options
      let (after, _) ← (readArguments known false spec.most {} rest).mapError (Refusal.after name)
      match readCommand name after with
      | none => .error .usage
      | some command =>
        if spec.other.isSome && after.others.isEmpty then .error .usage
        else
          return {
            verbose := before.has "verbose" || after.has "verbose"
            quiet := before.has "quiet" || after.has "quiet"
            json := before.has "json" || after.has "json"
            config := after.value? "config" <|> before.value? "config"
            database := after.value? "database"
            command }

end CommandLine

end CallGraphs
