import CallGraphs.Json.Basic

/-!
# Tables of TOML

The tables of a document while it is read, and what may be added to them.  A
key is given once and a table is opened once.  A table that is only mentioned
on the way to another one may still be opened later; a table that keys with
dots have made may be reached only by such keys and by the names of tables
inside it.
-/

namespace CallGraphs

namespace Toml

/-- How a table came to be. -/
inductive Origin where
  /-- Mentioned by the longer name of another table. -/
  | implied
  /-- Opened by its own name. -/
  | opened
  /-- Mentioned by a key with dots. -/
  | dotted
deriving DecidableEq, Inhabited, Repr

/-- What a key stands for while a document is read. -/
inductive Node where
  | value (v : Json)
  | table (origin : Origin) (entries : List (String × Node))
  /-- A list of tables, of which the last one is still open. -/
  | tables (closed : List (List (String × Node))) (last : List (String × Node))
deriving Inhabited

/-- A table while it is read. -/
abbrev Entries := List (String × Node)

mutual

/-- What a key stands for. -/
def Node.toJson : Node → Json
  | .value v => v
  | .table _ entries => .object (membersOf entries)
  | .tables closed last => .array (objectsOf closed ++ [.object (membersOf last)])

/-- What the keys of a table stand for. -/
def membersOf : List (String × Node) → List (String × Json)
  | [] => []
  | (name, node) :: rest => (name, node.toJson) :: membersOf rest

/-- What tables stand for. -/
def objectsOf : List (List (String × Node)) → List Json
  | [] => []
  | entries :: rest => .object (membersOf entries) :: objectsOf rest

end

namespace Entries

/-- A table with what one key stands for replaced or added. -/
def put (entries : Entries) (name : String) (node : Node) : Entries :=
  if entries.any (·.1 = name) then
    entries.map fun e => if e.1 = name then (name, node) else e
  else entries ++ [(name, node)]

/--
A table with one more value under a new key.  The key passes by no table that
was opened by its own name; and of the tables it passes, the one that gets
the value must have been made by a key with dots, unless it passes none.
-/
def assign (entries : Entries) (mayHold : Bool) : List String → Json → Option Entries
  | [], _ => none
  | [name], v =>
    if mayHold && (entries.lookup name).isNone then some (entries.put name (.value v)) else none
  | name :: names, v =>
    match entries.lookup name with
    | none => (assign [] true names v).map fun inner => entries.put name (.table .dotted inner)
    | some (.table .opened _) => none
    | some (.table origin inner) =>
      (assign inner (origin = .dotted) names v).map fun inner =>
        entries.put name (.table origin inner)
    | some (.tables closed last) =>
      (assign last false names v).map fun last => entries.put name (.tables closed last)
    | some (.value _) => none

/-- Changes the table that names lead to; tables on the way that are new are implied, and of a
list of tables the last one is taken. -/
def within (change : Entries → Option Entries) : List String → Entries → Option Entries
  | [], entries => change entries
  | name :: names, entries =>
    match entries.lookup name with
    | none => (within change names []).map fun inner => entries.put name (.table .implied inner)
    | some (.table origin inner) =>
      (within change names inner).map fun inner => entries.put name (.table origin inner)
    | some (.tables closed last) =>
      (within change names last).map fun last => entries.put name (.tables closed last)
    | some (.value _) => none

/-- Opens a table by its last name, in the table it belongs to. -/
def openHere (name : String) (entries : Entries) : Option Entries :=
  match entries.lookup name with
  | none => some (entries.put name (.table .opened []))
  | some (.table .implied inner) => some (entries.put name (.table .opened inner))
  | some _ => none

/-- Opens one more table of a list by the last name of the list. -/
def extendHere (name : String) (entries : Entries) : Option Entries :=
  match entries.lookup name with
  | none => some (entries.put name (.tables [] []))
  | some (.tables closed last) => some (entries.put name (.tables (closed ++ [last]) []))
  | some _ => none

/-- Opens a table, or one more table of a list. -/
def openTable (inList : Bool) (names : List String) (entries : Entries) : Option Entries :=
  match names.getLast? with
  | some last => within (if inList then extendHere last else openHere last) names.dropLast entries
  | none => none

end Entries

end Toml

end CallGraphs
