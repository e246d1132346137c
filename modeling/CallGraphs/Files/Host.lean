import CallGraphs.Files.Tree

/-!
# Hosts

What a command needs of the system it runs on: files, two streams of text and
a clock.  `Session` provides them as values, from a file tree and the text
printed so far.
-/

namespace CallGraphs

/-- A system on which commands run. -/
class Host (m : Type → Type) where
  /-- Whether a path names something. -/
  contains : String → m Bool
  /-- Whether a path names a directory. -/
  isDirectory : String → m Bool
  /-- The content of a file. -/
  read : String → m (Except FileError FileContent)
  /-- Writes a file. -/
  write : String → FileContent → m (Except FileError Unit)
  /-- Makes a directory and those it is in. -/
  makeDirectories : String → m (Except FileError Unit)
  /-- The names in a directory; none if it cannot be read. -/
  names : String → m (List String)
  /-- Prints a text. -/
  print : String → m Unit
  /-- Prints a text for the user, apart from the results. -/
  complain : String → m Unit
  /-- The time, in milliseconds since some fixed moment. -/
  clock : m Nat

namespace Host

variable {m : Type → Type} [Monad m] [Host m]

/-- The text of a file. -/
def readText (path : String) : m (Except FileError String) := do
  return (← read path).bind FileContent.asText

/-- Writes a text to a file. -/
def writeText (path text : String) : m (Except FileError Unit) := write path (.text text)

end Host

/-- The files as commands have left them, and what was printed. -/
structure Scene where
  files : FileTree := {}
  printed : String := ""
deriving DecidableEq, Inhabited, Repr

/-- Running on a scene. -/
abbrev Session := StateM Scene

namespace Session

/-- Changes the files, unless the change fails. -/
def change (f : FileTree → Except FileError FileTree) : Session (Except FileError Unit) :=
  fun scene =>
    match f scene.files with
    | .ok files => (.ok (), { scene with files })
    | .error e => (.error e, scene)

/-- On a scene time stands still, and nothing said to the user is kept. -/
instance : Host Session where
  contains path := return (← get).files.contains path
  isDirectory path := return (← get).files.isDirectory path
  read path := return (← get).files.read path
  write path content := change (·.write path content)
  makeDirectories path := change (·.makeDirectories path)
  names path := return ((← get).files.names path).toOption.getD []
  print text := modify fun scene => { scene with printed := scene.printed ++ text }
  complain _ := pure ()
  clock := pure 0

end Session

end CallGraphs
