import CallGraphs.Classes.Table
import CallGraphs.Facts.Slot

/-!
# Fields of unions

The pointer fields of a union share their storage, so they are one slot: each
stands for the first pointer field of the union.  A field that the union does
not list is taken for a pointer field.
-/

namespace CallGraphs

namespace ClassTable

/-- The field that stands for all pointer fields of a union. -/
def unionField? (t : ClassTable) (className : String) : Option String :=
  match t.class? className with
  | some c => if c.isUnion then (c.fields.find? (·.isPointer)).map (·.name) else none
  | none => none

/-- Whether a field of a class holds a pointer, for all that is known. -/
def mayHoldPointer (t : ClassTable) (className field : String) : Bool :=
  match (t.class? className).bind (·.field? field) with
  | some f => f.isPointer
  | none => true

/-- The slot under which what a slot holds is kept. -/
def canonical (t : ClassTable) : Slot → Slot
  | .field className field =>
    match t.unionField? className with
    | some first => .field className (if t.mayHoldPointer className field then first else field)
    | none => .field className field
  | .element array => .element (t.canonical array)
  | slot => slot

end ClassTable

end CallGraphs
