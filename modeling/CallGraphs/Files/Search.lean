import CallGraphs.Files.Host
import CallGraphs.Pattern.Glob

/-!
# Finding files

Which files a list of paths and file patterns stands for, on any host.
-/

namespace CallGraphs

namespace Glob

variable {m : Type → Type} [Monad m] [Host m]

/-- No path that a system takes has more names than this. -/
def maxLevels : Nat := 2048

/-- The path of a name in a directory; in the working directory it is the name alone. -/
def inside (directory name : String) : String :=
  if Path.isCurrent directory then name else Path.join directory name

/-- Everything below a directory down to some level: its path and its name. -/
def below : Nat → String → m (List (String × String))
  | 0, _ => return []
  | levels + 1, directory => do
    let names ← Host.names directory
    let found ← names.mapM fun name => do
      let path := inside directory name
      let deeper ← if ← Host.isDirectory path then below levels path else pure []
      return (path, name) :: deeper
    return found.flatten

/-- The names of a directory that tokens match, with their paths; with a leading dot also the two
names that every directory has, and before the others. -/
def matching (tokens : List Token) (directory : String) : m (List String) := do
  if ← Host.isDirectory directory then
    let found := (← Host.names directory).filter fun name => matchesName tokens name
    let special := if tokens.head? = some (.char '.')
      then ["..", "."].filter fun name => matchesName tokens name else []
    return special.map (Path.join directory) ++ found.map (inside directory)
  else return []

/-- The path of a name without wildcards, if it is there. -/
def existing (name directory : String) : m (List String) := do
  let path := inside directory name
  let here ← if name = "." || name = ".." then Host.isDirectory directory else Host.contains path
  return if here then [path] else []

/-- The paths that components lead to from a directory. -/
def follow : List Component → String → m (List String)
  | [], path => return [path]
  | .named tokens :: rest, directory => do
    let found ← match literal? tokens with
      | some name => existing name directory
      | none => matching tokens directory
    return (← found.mapM (follow rest)).flatten
  | [.anyDepth], directory => do
    ((← below maxLevels directory).map (·.1)).filterM fun path => Host.isDirectory path
  | .anyDepth :: .named tokens :: rest, directory => do
    let found := (← below maxLevels directory).filter fun e => matchesName tokens e.2
    return (← found.mapM fun e => follow rest e.1).flatten
  | .anyDepth :: .anyDepth :: _, _ => return []

/-- The paths that a pattern matches, sorted by their parts. -/
def paths (glob : Glob) : m (List String) := do
  let found ← follow glob.components (if glob.fromRoot then "/" else ".")
  let found ← if glob.onlyDirectories then found.filterM fun p => Host.isDirectory p
    else pure found
  return found.mergeSort fun a b => (compare (Path.parts a) (Path.parts b)).isLE

end Glob

namespace Files

variable {m : Type → Type} [Monad m] [Host m]

/-- Of several spellings of one path, the first. -/
def distinct : List String → List String
  | [] => []
  | path :: rest => path :: (distinct rest).filter fun p => Path.parts p ≠ Path.parts path

/-- The paths that one path or pattern stands for. -/
def expandOne (pattern : String) : m (Option (List String)) :=
  if Glob.isPattern pattern then
    match Glob.parse? pattern with
    | some glob => return some (← glob.paths)
    | none => return none
  else return some [pattern]

/-- The paths that paths and patterns stand for, each once; or the first pattern that is none. -/
def expand (patterns : List String) : m (Except String (List String)) := do
  let found ← patterns.mapM fun pattern => return (pattern, ← expandOne pattern)
  match found.find? (·.2.isNone) with
  | some (pattern, _) => return .error pattern
  | none => return .ok (distinct (found.filterMap (·.2)).flatten)

end Files

end CallGraphs
