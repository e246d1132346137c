/-!
# JSON values

The documents that fact files and listings are written in.  Members of an
object keep their order and may repeat a name; what a repetition means is for
the reader of a record to say.
-/

namespace CallGraphs

/-- A JSON value. -/
inductive Json where
  | null
  | bool (value : Bool)
  /-- A number written with digits only. -/
  | natural (value : Nat)
  /-- Any other number, as it is printed. -/
  | decimal (literal : String)
  | string (value : String)
  | array (items : List Json)
  | object (members : List (String × Json))
  /-- Something that is written as a value must be and stands for none: a string with half of a
  surrogate pair, a number beyond all that can be stored, an object with such a name, or arrays
  and objects nested too deep.  Where a value is not asked for, it does no harm. -/
  | unusable
deriving Inhabited

namespace Json

/-- A list as an array. -/
def list {α : Type} (encode : α → Json) (items : List α) : Json := array (items.map encode)

/-- A list of texts as an array. -/
def strings (items : List String) : Json := list string items

/-- A value that may be absent: `null` without it. -/
def option {α : Type} (encode : α → Json) : Option α → Json
  | some value => encode value
  | none => null

mutual

/-- The same value with the members of every object sorted by name. -/
def sortKeys : Json → Json
  | array items => array (sortItems items)
  | object members => object ((sortMembers members).mergeSort fun a b => (compare a.1 b.1).isLE)
  | other => other

/-- `sortKeys` on every item. -/
def sortItems : List Json → List Json
  | [] => []
  | item :: rest => sortKeys item :: sortItems rest

/-- `sortKeys` on the value of every member. -/
def sortMembers : List (String × Json) → List (String × Json)
  | [] => []
  | (name, value) :: rest => (name, sortKeys value) :: sortMembers rest

end

mutual

/-- How many arrays and objects are nested in a value. -/
def nesting : Json → Nat
  | array items => nestingItems items + 1
  | object members => nestingMembers members + 1
  | _ => 0

/-- The deepest nesting among items. -/
def nestingItems : List Json → Nat
  | [] => 0
  | item :: rest => max (nesting item) (nestingItems rest)

/-- The deepest nesting among the values of members. -/
def nestingMembers : List (String × Json) → Nat
  | [] => 0
  | (_, value) :: rest => max (nesting value) (nestingMembers rest)

end

mutual

/-- Whether a value has no part that is unusable. -/
def isSound : Json → Bool
  | unusable => false
  | array items => areSound items
  | object members => areSoundMembers members
  | _ => true

/-- Whether all items are sound. -/
def areSound : List Json → Bool
  | [] => true
  | item :: rest => isSound item && areSound rest

/-- Whether the values of all members are sound. -/
def areSoundMembers : List (String × Json) → Bool
  | [] => true
  | (_, value) :: rest => isSound value && areSoundMembers rest

end

end Json

end CallGraphs
