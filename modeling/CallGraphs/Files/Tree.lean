import CallGraphs.Files.Path

/-!
# File trees

The files below a directory, as a value.  Paths are followed name by name, so
a path leads nowhere when it passes through something that is not a directory.
The directories above are there and empty, and so is the root of all files,
but for the null device, which holds nothing and keeps nothing.
-/

namespace CallGraphs

/-! ## Errors -/

/-- Why a file cannot be read or written. -/
inductive FileError where
  | notFound
  | alreadyExists
  | notADirectory
  | isADirectory
  /-- A name or a path is longer than any that a system takes. -/
  | nameTooLong
  /-- A path has a NUL in it. -/
  | invalidPath
  /-- What is in a file is no text. -/
  | notText
  /-- Anything else that a system reports. -/
  | other (text : String)
deriving DecidableEq, Inhabited, Repr

namespace FileError

/-- The error in words, with the number that systems give it. -/
def message : FileError → String
  | notFound => "No such file or directory (os error 2)"
  | alreadyExists => "File exists (os error 17)"
  | notADirectory => "Not a directory (os error 20)"
  | isADirectory => "Is a directory (os error 21)"
  | nameTooLong => "File name too long (os error 36)"
  | invalidPath => "file name contained an unexpected NUL byte"
  | notText => "stream did not contain valid UTF-8"
  | other text => text

end FileError

/-! ## Trees -/

/-- What is in a file. -/
inductive FileContent where
  | text (content : String)
  /-- Data in a form of its own, which is no text. -/
  | data (content : String)
deriving DecidableEq, Inhabited, Repr

namespace FileContent

/-- The text of a file. -/
def asText : FileContent → Except FileError String
  | text content => .ok content
  | data _ => .error .notText

end FileContent

/-- What a name in a directory stands for. -/
inductive FileEntry where
  | file (content : FileContent)
  | directory
deriving DecidableEq, Inhabited, Repr

/-- The files and directories below a directory, by the names that lead to them. -/
structure FileTree where
  entries : List (List String × FileEntry) := []
deriving DecidableEq, Inhabited, Repr

namespace FileTree

/-- The place of the null device. -/
def nullDevice : List String := ["/", "dev", "null"]

/-- The directories that are always there: the tree itself, those above it, and the one that the
null device is in. -/
def isAlwaysThere (place : List String) : Bool :=
  place.all (· = "..") || place = ["/"] || place = ["/", "dev"]

/-- What is at a place. -/
def entry? (t : FileTree) (place : List String) : Option FileEntry :=
  if isAlwaysThere place then some .directory
  else if place = nullDevice then some (.file (.text ""))
  else t.entries.lookup place

/-- The tree with something at a place. -/
def set (t : FileTree) (place : List String) (entry : FileEntry) : FileTree :=
  if place = nullDevice then t
  else { entries := t.entries.filter (·.1 ≠ place) ++ [(place, entry)] }

/-- The place one directory up. -/
def above (place : List String) : List String :=
  if place = ["/"] then place
  else if place.all (· = "..") then place ++ [".."]
  else place.dropLast

/-! ## Paths -/

/-- The bytes that a name may have. -/
def maxNameBytes : Nat := 255

/-- The bytes that a path may have. -/
def maxPathBytes : Nat := 4095

/-- The place that the parts of a path lead to from a directory. -/
def descend (t : FileTree) : (place : List String) → List PathPart → Except FileError (List String)
  | place, [] => .ok place
  | place, part :: rest =>
    match t.entry? place with
    | none => .error .notFound
    | some (.file _) => .error .notADirectory
    | some .directory =>
      match part with
      | .name text =>
        if maxNameBytes < text.utf8ByteSize then .error .nameTooLong
        else t.descend (place ++ [text]) rest
      | .current => t.descend place rest
      | .parent => t.descend (above place) rest
      | .root => t.descend ["/"] rest

/-- Whether a path can be one at all. -/
def check (path : String) : Except FileError Unit :=
  if path.contains '\x00' then .error .invalidPath
  else if path.isEmpty then .error .notFound
  else if maxPathBytes < path.utf8ByteSize then .error .nameTooLong
  else .ok ()

/-- The place of a path, whether something is there or not. -/
def locate (t : FileTree) (path : String) : Except FileError (List String) := do
  check path
  t.descend [] (Path.parts path)

/-- What a path names. -/
def find (t : FileTree) (path : String) : Except FileError FileEntry := do
  match t.entry? (← t.locate path) with
  | none => .error .notFound
  | some .directory => return .directory
  | some (.file content) =>
    if Path.namesDirectory path then .error .notADirectory else return .file content

/-! ## Reading and writing -/

/-- Whether a path names something. -/
def contains (t : FileTree) (path : String) : Bool := (t.find path).isOk

/-- Whether a path names a directory. -/
def isDirectory (t : FileTree) (path : String) : Bool :=
  match t.find path with
  | .ok .directory => true
  | _ => false

/-- The content of a file. -/
def read (t : FileTree) (path : String) : Except FileError FileContent := do
  match ← t.find path with
  | .file content => return content
  | .directory => .error .isADirectory

/--
Writes a file, in a directory that must be there.  A path with a slash at its
end can only be that of a directory, and so can one that ends in dots.
-/
def write (t : FileTree) (path : String) (content : FileContent) : Except FileError FileTree := do
  let place ← t.locate path
  if Path.endsInDots path then
    match t.entry? place with
    | none => .error .notFound
    | some (.file _) => .error .notADirectory
    | some .directory => .error .isADirectory
  else if path.endsWith "/" || t.entry? place = some .directory then .error .isADirectory
  else return t.set place (.file content)

/-- Makes the directories along some parts that are not there yet. -/
def makeAlong (t : FileTree) (place : List String) : List PathPart → Except FileError FileTree
  | [] => .ok t
  | part :: rest => do
    let place ← t.descend place [part]
    match t.entry? place with
    | some .directory => t.makeAlong place rest
    | none => (t.set place .directory).makeAlong place rest
    | some (.file _) => .error (if rest.isEmpty then .alreadyExists else .notADirectory)

/-- Makes a directory and those it is in, as far as they are not there yet. -/
def makeDirectories (t : FileTree) (path : String) : Except FileError FileTree :=
  if path.isEmpty then .ok t
  else do
    check path
    t.makeAlong [] (Path.parts path)

/-- The names in a directory. -/
def names (t : FileTree) (path : String) : Except FileError (List String) := do
  let place ← t.locate path
  match ← t.find path with
  | .file _ => .error .notADirectory
  | .directory =>
    return (t.entries.filter fun e => !e.1.isEmpty && e.1.dropLast = place).filterMap (·.1.getLast?)

/-- Adds a text file and the directories it is in. -/
def add (t : FileTree) (path content : String) : Except FileError FileTree := do
  (← t.makeDirectories (Path.directory path)).write path (.text content)

/-- The tree of some text files, unless one of them cannot be there. -/
def ofFiles (files : List (String × String)) : Except FileError FileTree :=
  files.foldlM (fun t (path, content) => t.add path content) {}

end FileTree

end CallGraphs
