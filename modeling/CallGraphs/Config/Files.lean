import CallGraphs.Config.Basic
import CallGraphs.Files.Host
import CallGraphs.Text.Classes

/-!
# Configuration files
-/

namespace CallGraphs

/-- Why a configuration cannot be read or written. -/
inductive ConfigError where
  /-- There is a file already. -/
  | alreadyThere (path : String)
  /-- A file cannot be read or written. -/
  | file (error : FileError)
  /-- The text is no configuration. -/
  | malformed
  /-- A number of the configuration is too large for a file. -/
  | outOfRange
deriving DecidableEq, Inhabited, Repr

namespace ConfigError

/-- The error in words. -/
def message : ConfigError → String
  | alreadyThere path => "config already exists at " ++ path ++ " (use --force to overwrite)"
  | file e => e.message
  | malformed => "TOML parse error"
  | outOfRange => "out-of-range value"

end ConfigError

namespace Config

variable {m : Type → Type} [Monad m] [Host m]

/-- Where a configuration is looked for. -/
def defaultPath : String := "cgcollect.toml"

/-- The directory, in the one that a project is in, that holds what is stored. -/
def storeDirectory : String := ".cgcollect"

/-- The file for queries, in a directory. -/
def databaseIn (directory : String) : String :=
  Path.join (Path.join directory storeDirectory) "callgraph.db"

/-- The configuration in a file, if the file is there. -/
def load (path : String) : m (Except ConfigError (Option Config)) := do
  if ← Host.contains path then
    match ← Host.readText path with
    | .error e => return .error (.file e)
    | .ok text =>
      match parse? text with
      | some config => return .ok (some config)
      | none => return .error .malformed
  else return .ok none

/-- Writes a file, with errors of configurations. -/
def writeFile (path text : String) : m (Except ConfigError Unit) := do
  match ← Host.writeText path text with
  | .ok () => return .ok ()
  | .error e => return .error (.file e)

/-- Writes a configuration.  A file that is there is replaced only by force. -/
def write (path : String) (config : Config) (force : Bool) : m (Except ConfigError Unit) := do
  if (← Host.contains path) && !force then return .error (.alreadyThere path)
  else
    match config.text? with
    | none => return .error .outOfRange
    | some text => writeFile path text

/-- What a line says, without the blanks around it. -/
def trimmed (line : String) : List Char :=
  (((line.toList.dropWhile isBlank).reverse).dropWhile isBlank).reverse

/-- The entry by which version control passes over what is stored. -/
def ignoreEntry : String := storeDirectory ++ "/"

/-- The text of a list of ignored files with the entry in it. -/
def withEntry (text : String) : String :=
  if (text.splitOn "\n").any fun line => trimmed line = ignoreEntry.toList then text
  else (if text.isEmpty || text.endsWith "\n" then text else text ++ "\n") ++ ignoreEntry ++ "\n"

/-- Makes version control of a directory pass over what is stored there. -/
def ensureIgnored (directory : String) : m (Except ConfigError Unit) := do
  let path := Path.join directory ".gitignore"
  if ← Host.contains path then
    match ← Host.readText path with
    | .error e => return .error (.file e)
    | .ok text =>
      if withEntry text = text then return .ok () else writeFile path (withEntry text)
  else writeFile path (withEntry "")

end Config

end CallGraphs
