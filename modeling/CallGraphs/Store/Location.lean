import CallGraphs.Text.Numerals

/-!
# Where graphs are stored

A stored graph is named by a path or by an address that starts with `file:`.
In an address, bytes may be given by number, options follow a question mark,
and nothing after a hash counts.  Some names stand for a graph that is kept
only while it is used.  A path is made plain name by name before it is
followed.
-/

namespace CallGraphs

/-! ## Errors -/

/-- Why a stored graph cannot be used. -/
inductive StoreError where
  /-- A file cannot be opened or made. -/
  | cannotOpen (path : String)
  /-- What is in a file is no stored graph. -/
  | notAStore
  /-- A graph that is only for reading is to be changed. -/
  | readOnly
  /-- An address names another machine. -/
  | foreignHost (name : String)
  /-- An option of an address has a value that it cannot have. -/
  | unknownMode (option value : String)
  /-- An address asks for a file system that is not there. -/
  | unknownSystem (name : String)
  /-- A path has a NUL in it, after so many bytes. -/
  | invalidPath (position : Nat)
deriving DecidableEq, Inhabited, Repr

namespace StoreError

/-- What is wrong. -/
def detail : StoreError → String
  | cannotOpen path => "unable to open database file: " ++ path
  | notAStore => "file is not a database"
  | readOnly => "attempt to write a readonly database"
  | foreignHost name => "invalid uri authority: " ++ name
  | unknownMode option value => "no such " ++ option ++ " mode: " ++ value
  | unknownSystem name => "no such vfs: " ++ name
  | invalidPath position => s!"nul byte found in provided data at position: {position}"

/-- The cause of it, by its number. -/
def cause : StoreError → String
  | cannotOpen _ => "Error code 14: Unable to open the database file"
  | notAStore => "Error code 26: File opened that is not a database file"
  | readOnly => "Error code 8: Attempt to write a readonly database"
  | invalidPath position => (invalidPath position).detail
  | _ => "Error code 1: SQL error or missing database"

/-- The error in words. -/
def message (e : StoreError) : String := "Storage error: " ++ e.detail

/-- The error in words, and after it all that led to it. -/
def chain (e : StoreError) : String := e.message ++ ": " ++ e.detail ++ ": " ++ e.cause

end StoreError

/-! ## Locations -/

/-- What may be done with a file. -/
inductive StoreAccess where
  | readOnly
  /-- It may be changed, but not made. -/
  | existing
  /-- It may be changed, and is made if need be. -/
  | creating
deriving DecidableEq, Inhabited, Repr

/-- Where a graph is stored. -/
inductive StoreLocation where
  /-- Nowhere: it is kept only while it is used. -/
  | nowhere
  | file (path : String) (access : StoreAccess)
deriving DecidableEq, Inhabited, Repr

namespace StoreLocation

/-- The bytes that a path may have. -/
def maxPathBytes : Nat := 504

/-- The names of a path after one more name; to go up is to take the last one back. -/
def addName (fromRoot : Bool) (names : List String) (name : String) : List String :=
  if name = "" || name = "." then names
  else if name = ".." then
    if names.isEmpty && fromRoot then []
    else if names.all (· = "..") then names ++ [".."]
    else names.dropLast
  else names ++ [name]

/-- A path without names that change nothing, whatever is there. -/
def plainPath (path : String) : String :=
  let fromRoot := path.startsWith "/"
  let names := (path.splitOn "/").foldl (addName fromRoot) []
  let plain := String.intercalate "/" names
  if fromRoot then "/" ++ plain else if plain.isEmpty then "." else plain

/-- The location of a path. -/
def ofPath (path : String) (access : StoreAccess) : Except StoreError StoreLocation :=
  if path.isEmpty || path = ":memory:" then .ok nowhere
  else if maxPathBytes < (plainPath path).utf8ByteSize then .error (.cannotOpen path)
  else .ok (file (plainPath path) access)

/-! ## Addresses -/

/-- The bytes that a part of an address stands for, up to a NUL. -/
def decodedBytes : List Char → List UInt8
  | '%' :: a :: b :: rest =>
    match hexNumber [a, b] with
    | some 0 => []
    | some n => n.toUInt8 :: decodedBytes rest
    | none => '%'.toNat.toUInt8 :: decodedBytes (a :: b :: rest)
  | c :: rest => String.utf8EncodeChar c ++ decodedBytes rest
  | [] => []

/-- The text that a part of an address stands for. -/
def decoded (part : List Char) : Option String :=
  String.fromUTF8? (decodedBytes part).toByteArray

/-- The names and values of the options of an address. -/
def addressOptions (query : List Char) : List (String × String) :=
  (query.splitOn '&').filterMap fun option =>
    let (name, value) := option.span (· ≠ '=')
    match decoded name, decoded (value.drop 1) with
    | some name, some value => if name.isEmpty then none else some (name, value)
    | _, _ => none

/-- An address without the machine in front, which can only be this one. -/
def withoutHost : List Char → Except StoreError (List Char)
  | '/' :: '/' :: rest =>
    let host := rest.takeWhile (· ≠ '/')
    if host.isEmpty || host = "localhost".toList then .ok (rest.drop host.length)
    else .error (.foreignHost (String.ofList host))
  | cs => .ok cs

/-- What is known of an address: where its path leads, once that is known to matter, and what may
be done there. -/
structure Address where
  access : StoreAccess := .creating
  inMemory : Bool := false
deriving DecidableEq, Inhabited, Repr

namespace Address

/-- The address with one more option. -/
def apply (a : Address) (option : String × String) : Except StoreError Address :=
  match option with
  | ("mode", "ro") => .ok { access := .readOnly }
  | ("mode", "rw") => .ok { access := .existing }
  | ("mode", "rwc") => .ok { access := .creating }
  | ("mode", "memory") => .ok { a with inMemory := true }
  | ("mode", value) => .error (.unknownMode "access" value)
  | ("cache", value) =>
    if value = "shared" || value = "private" then .ok a else .error (.unknownMode "cache" value)
  | ("vfs", value) =>
    if value = "memdb" then .ok { a with inMemory := true }
    else if value ∈ ["unix", "unix-none", "unix-dotfile", "unix-excl"] then .ok a
    else .error (.unknownSystem value)
  | _ => .ok a

end Address

/-- The location of an address, after its `file:`. -/
def ofAddress (whole : String) (cs : List Char) : Except StoreError StoreLocation := do
  let cs := (← withoutHost cs).takeWhile (· ≠ '#')
  let (path, query) := cs.span (· ≠ '?')
  let address ← (addressOptions (query.drop 1)).foldlM Address.apply {}
  match decoded path with
  | none => .error (.cannotOpen whole)
  | some path => if address.inMemory then .ok nowhere else ofPath path address.access

/-- The location that a text names. -/
def read (text : String) : Except StoreError StoreLocation :=
  let before := text.toList.takeWhile (· ≠ '\x00')
  if before.length < text.length then .error (.invalidPath (String.ofList before).utf8ByteSize)
  else
    match text.toList with
    | 'f' :: 'i' :: 'l' :: 'e' :: ':' :: rest => ofAddress text rest
    | _ => ofPath text .creating

end StoreLocation

end CallGraphs
