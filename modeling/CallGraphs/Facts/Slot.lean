import CallGraphs.Graph.Function

/-!
# Slots

Places that may hold the address of a function.  A slot is named by canonical
names only, so the same slot named in two units is the same storage.
-/

namespace CallGraphs

/-- A place that may hold the address of a function. -/
inductive Slot where
  /-- A local variable of a function. -/
  | localVar (function : FunctionKey) (name : String)
  /-- A parameter of a function, by position. -/
  | param (function : FunctionKey) (index : Nat)
  /-- What a function returns. -/
  | result (function : FunctionKey)
  /-- A field of a class, in all its instances. -/
  | field (className : String) (name : String)
  /-- A global variable. -/
  | global (name : String)
  /-- The elements of an array, all together. -/
  | element (array : Slot)
  /-- A temporary inside a function. -/
  | temporary (function : FunctionKey) (id : Nat)
deriving DecidableEq, Ord, Inhabited, Repr

namespace Slot

/-- The function whose body the slot belongs to. -/
def owner? : Slot → Option FunctionKey
  | localVar function _ | param function _ | result function | temporary function _ =>
    some function
  | element array => array.owner?
  | field .. | global _ => none

/-- Whether the slot is a global variable or an array held in one. -/
def isGlobal : Slot → Bool
  | global _ => true
  | element array => array.isGlobal
  | _ => false

/-- The slot in words. -/
def text : Slot → String
  | localVar function name => "local " ++ function ++ "::" ++ name
  | param function index => "param " ++ function ++ "#" ++ toString index
  | result function => "return of " ++ function
  | field className name => "field " ++ className ++ "::" ++ name
  | global name => "global " ++ name
  | element array => array.text ++ "[]"
  | temporary function id => "temporary " ++ function ++ "%" ++ toString id

/-- The slots of a list, each once: by sort in the order of their declaration, then by parts. -/
def sorted (slots : List Slot) : List Slot := slots.foldr insertSorted []

end Slot

end CallGraphs
