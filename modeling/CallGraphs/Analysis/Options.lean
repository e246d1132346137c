import CallGraphs.Json.Record

/-!
# Options of an analysis
-/

namespace CallGraphs

/-- What is done with the result of a call that may be a function address. -/
inductive ReturnFlow where
  /-- It is unknown, and calls through it are reported. -/
  | unresolved
  /-- It is followed, through a slot for what each function returns. -/
  | track
deriving DecidableEq, Inhabited, Repr

namespace ReturnFlow

/-- The words for the two ways. -/
def words : List (String × ReturnFlow) := [("unresolved", unresolved), ("track", track)]

/-- The name of a way in every text. -/
def name : ReturnFlow → String
  | unresolved => "unresolved"
  | track => "track"

end ReturnFlow

/-- What an analysis is asked to do. -/
structure Options where
  returnFlow : ReturnFlow := .unresolved
  /-- Calls of constructors and destructors that the compiler inserts are added. -/
  captureLifetimes : Bool := true
  /-- A cap on the rounds of the pointer flow. -/
  maxIterations : Option Nat := none
  /-- How many units may be analysed at a time. -/
  threads : Option Nat := none
deriving DecidableEq, Inhabited, Repr

namespace Options

/-- The options as a record. -/
def toJson (o : Options) : Json :=
  .object [
    ("return_flow", .string o.returnFlow.name),
    ("capture_ctors_dtors", .bool o.captureLifetimes),
    ("max_iterations", .option .natural o.maxIterations),
    ("threads", .option .natural o.threads)]

/-- Reads options; each has a default. -/
def read? (dialect : Dialect) (j : Json) : Option Options := do
  let f ← j.fieldsIn? dialect ["return_flow", "capture_ctors_dtors", "max_iterations", "threads"]
  some {
    returnFlow := ← f.getD "return_flow" .unresolved (Json.wordIn? dialect ReturnFlow.words)
    captureLifetimes := ← f.getD "capture_ctors_dtors" true Json.asBool?
    maxIterations := ← f.option "max_iterations" Json.asCount?
    threads := ← f.option "threads" Json.asCount? }

/-- Reads options in JSON. -/
def ofJson? : Json → Option Options := read? .plain

end Options

end CallGraphs
