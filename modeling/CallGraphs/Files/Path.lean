/-!
# Paths

A path is written as names with slashes between them.  Two spellings are the
same path when they have the same parts: empty names do not count, nor does a
dot, unless the path starts with it.
-/

namespace CallGraphs

/-- A part of a path. -/
inductive PathPart where
  /-- The root of all files. -/
  | root
  /-- A leading dot. -/
  | current
  /-- One directory up. -/
  | parent
  /-- A file or directory of the directory reached so far. -/
  | name (text : String)
deriving DecidableEq, Ord, Inhabited, Repr

namespace PathPart

/-- The part that a name stands for, if it counts. -/
def ofName? (text : String) : Option PathPart :=
  if text = "" || text = "." then none
  else if text = ".." then some parent
  else some (name text)

/-- The part as it is written. -/
def text : PathPart → String
  | root => ""
  | current => "."
  | parent => ".."
  | name text => text

end PathPart

namespace Path

/-- The parts of a path. -/
def parts (path : String) : List PathPart :=
  match path.splitOn "/" with
  | [_] =>
    if path = "." then [.current] else (PathPart.ofName? path).toList
  | "" :: names => .root :: names.filterMap PathPart.ofName?
  | "." :: names => .current :: names.filterMap PathPart.ofName?
  | names => names.filterMap PathPart.ofName?

/-- A path inside a directory; a path from the root is what it is everywhere. -/
def join (directory path : String) : String :=
  if path.startsWith "/" then path
  else if directory.isEmpty || directory.endsWith "/" then directory ++ path
  else directory ++ "/" ++ path

/-- The path of some parts. -/
def ofParts (parts : List PathPart) : String :=
  if parts = [.root] then "/" else String.intercalate "/" (parts.map PathPart.text)

/-- The directory that a path names something in; no name for the directory one is in. -/
def directory (path : String) : String := ofParts (parts path).dropLast

/-- Whether a path is the directory one is in, however it is written. -/
def isCurrent (path : String) : Bool := parts path = [.current]

/-- A path that can only name a directory. -/
def namesDirectory (path : String) : Bool := path.endsWith "/" || path.endsWith "/."

/-- The last name of a path as it is written. -/
def lastName (path : String) : String :=
  ((path.splitOn "/").filter (· ≠ "")).getLast?.getD ""

/-- A path whose last name is one that every directory has. -/
def endsInDots (path : String) : Bool := lastName path = "." || lastName path = ".."

end Path

end CallGraphs
