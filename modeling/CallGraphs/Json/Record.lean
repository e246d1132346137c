import CallGraphs.Data.Word
import CallGraphs.Json.Basic

/-!
# Records in JSON

How structures are written as JSON values and read back.  A record is an
object of named fields, or the array of its fields in order; a reader takes
either.  A field may have a default, fields of other names are ignored, and a
field that is given twice makes the record unreadable.  A choice between
records carries the name of the chosen one in its field `kind`.  All of a
choice is looked at before its kind is known, so no part of it may be
unusable, not even one of its unknown fields.  A choice inside of a choice
may give its kind by number too.
-/

namespace CallGraphs

/-- How a record is written. -/
inductive Layout where
  /-- An object with a member for each field. -/
  | named
  /-- An array of the fields in order. -/
  | positional
deriving DecidableEq, Inhabited, Repr

namespace Layout

/-- A record of the given fields. -/
def record : Layout → List (String × Json) → Json
  | named, fields => .object fields
  | positional, fields => .array (fields.map (·.2))

end Layout

/-- How freely records are read. -/
structure Dialect where
  /-- What may stand after a word that is written as the name of a member. -/
  isNothing : Json → Bool
  /-- An array may have more items than the record has fields. -/
  takesMore : Bool := false

namespace Dialect

/-- The rules for records in JSON. -/
def plain : Dialect where
  isNothing
    | .null => true
    | _ => false

/-- The rules inside of a choice, where an empty object counts as nothing too. -/
def inner : Dialect where
  isNothing
    | .null => true
    | .object [] => true
    | _ => false

/-- The rules for tables, in which `null` cannot be written. -/
def table : Dialect where
  isNothing
    | .object [] => true
    | .array [] => true
    | _ => false
  takesMore := true

end Dialect

namespace Json

/-- A record that is one of several: its name, then its fields. -/
def choice (kind : String) (fields : List (String × Json)) : Json :=
  object (("kind", string kind) :: fields)

/-- A field that is left out when it is absent. -/
def optionalField (name : String) : Option String → List (String × Json)
  | some text => [(name, string text)]
  | none => []

/-! ## Reading simple values -/

/-- A text. -/
def asString? : Json → Option String
  | string value => some value
  | _ => none

/-- A truth value. -/
def asBool? : Json → Option Bool
  | bool value => some value
  | _ => none

/-- A natural number below a limit. -/
def below? (limit : Nat) : Json → Option Nat
  | natural value => if value < limit then some value else none
  | _ => none

/-- A count, which is a word. -/
def asCount? : Json → Option Nat := below? wordLimit

/-- An array, item by item. -/
def asList? {α : Type} (item : Json → Option α) : Json → Option (List α)
  | array items => items.mapM item
  | _ => none

/-- A value that may be `null`. -/
def asOption? {α : Type} (value : Json → Option α) : Json → Option (Option α)
  | null => some none
  | j => (value j).map some

/--
A word out of a list of words.  A word may also be written as an object whose
one member has the word for its name and nothing for its value.
-/
def wordIn? {α : Type} (dialect : Dialect) (words : List (String × α)) : Json → Option α
  | string word => words.lookup word
  | object [(word, value)] => if dialect.isNothing value then words.lookup word else none
  | _ => none

/-- A word out of a list of words, in plain JSON. -/
def asWord? {α : Type} (words : List (String × α)) : Json → Option α := wordIn? .plain words

/-! ## Reading records -/

/-- The fields of a record that were given. -/
abbrev Fields := String → Option Json

/--
The fields of a record with these field names.  An object must not give one
of them twice, and an array must not be longer than the list of names, unless
that is allowed.
-/
def fieldsIn? (dialect : Dialect) (names : List String) : Json → Option Fields
  | object members =>
    if ((members.map (·.1)).filter (· ∈ names)).Nodup then some (members.lookup ·) else none
  | array items =>
    if dialect.takesMore || items.length ≤ names.length then some ((names.zip items).lookup ·)
    else none
  | _ => none

/-- The fields of a record with these field names, in plain JSON. -/
def fields? (names : List String) : Json → Option Fields := fieldsIn? .plain names

/-- The kind that a value names; inside of a choice this may be its number. -/
def kind? (kinds : List String) (inner : Bool) : Json → Option String
  | string kind => some kind
  | natural index => if inner then kinds[index]? else none
  | _ => none

/-- The chosen record, one of some kinds, and what is left to read its fields from. -/
def choice? (kinds : List String) (inner : Bool) (j : Json) : Option (String × Json) :=
  if !inner && !j.isSound then none
  else
    match j with
    | object members =>
      match members.filter (·.1 = "kind") with
      | [(_, value)] =>
        (kind? kinds inner value).map (·, object (members.filter (·.1 ≠ "kind")))
      | _ => none
    | array (value :: items) => (kind? kinds inner value).map (·, array items)
    | _ => none

namespace Fields

/-- A field that must be given. -/
def get {α : Type} (fields : Fields) (name : String) (value : Json → Option α) : Option α :=
  (fields name).bind value

/-- A field with a default. -/
def getD {α : Type} (fields : Fields) (name : String) (default : α) (value : Json → Option α) :
    Option α :=
  match fields name with
  | some j => value j
  | none => some default

/-- A list that is empty when it is not given. -/
def list {α : Type} (fields : Fields) (name : String) (item : Json → Option α) :
    Option (List α) :=
  fields.getD name [] (asList? item)

/-- A value that is absent when it is not given. -/
def option {α : Type} (fields : Fields) (name : String) (value : Json → Option α) :
    Option (Option α) :=
  fields.getD name none (asOption? value)

/-- A flag that is off when it is not given. -/
def flag (fields : Fields) (name : String) : Option Bool := fields.getD name false asBool?

end Fields

end Json

end CallGraphs
