import CallGraphs.Facts.Class

/-!
# Class tables

The class records of a program, one for each class, in the order in which the
classes were first seen.  Several records of one class are joined: bases,
fields, methods and constructors accumulate in the order of their first
mention, and the first destructor stays.
-/

namespace CallGraphs

/-- A list with those elements of another added that are not the same as an earlier one. -/
def appendNew {α : Type} (same : α → α → Bool) (l more : List α) : List α :=
  more.foldl (fun l x => if l.any (same x) then l else l ++ [x]) l

namespace ClassRecord

/-- What is known of a class after another record of it. -/
def absorb (c other : ClassRecord) : ClassRecord :=
  { c with
    bases := appendNew (fun a b => a.className = b.className) c.bases other.bases
    methods := appendNew (fun a b => a.function = b.function) c.methods other.methods
    constructors :=
      appendNew (fun a b => a.function = b.function) c.constructors other.constructors
    destructor := c.destructor <|> other.destructor
    fields := appendNew (fun a b => a.name = b.name) c.fields other.fields
    isUnion := c.isUnion || other.isUnion }

@[simp]
theorem key_absorb (c other : ClassRecord) : (c.absorb other).key = c.key := rfl

end ClassRecord

/-- The classes of a program. -/
structure ClassTable where
  /-- One record for each class, in the order in which the classes were first seen. -/
  records : List ClassRecord := []
deriving DecidableEq, Inhabited, Repr

namespace ClassTable

/-- The names of the classes. -/
def keys (t : ClassTable) : List String := t.records.map (·.key)

/-- The record of a class. -/
def class? (t : ClassTable) (key : String) : Option ClassRecord :=
  t.records.find? (·.key = key)

/-- Whether a class is in the table. -/
def contains (t : ClassTable) (key : String) : Bool := t.keys.contains key

/-- Adds a record; an earlier record of the class absorbs it. -/
def add (t : ClassTable) (record : ClassRecord) : ClassTable :=
  if t.contains record.key then
    ⟨t.records.map fun c => if c.key = record.key then c.absorb record else c⟩
  else ⟨t.records ++ [record]⟩

/-- The table of a list of records. -/
def ofRecords (records : List ClassRecord) : ClassTable := records.foldl add {}

/-- The names of the direct bases of a class; none if it is unknown. -/
def basesOf (t : ClassTable) (key : String) : List String :=
  ((t.class? key).map (·.baseNames)).getD []

/-- The classes that have a class for a direct base. -/
def derivedFrom (t : ClassTable) (key : String) : List String :=
  (t.records.filter (·.baseNames.contains key)).map (·.key)

theorem derivedFrom_subset_keys (t : ClassTable) (key : String) : t.derivedFrom key ⊆ t.keys := by
  intro x hx
  obtain ⟨c, hc, rfl⟩ := List.mem_map.1 hx
  exact List.mem_map_of_mem (List.mem_filter.1 hc).1

/-- The last class that lists a function as its member. -/
def owner? (t : ClassTable) (function : FunctionKey) : Option String :=
  (t.records.reverse.find? (·.members.contains function)).map (·.key)

/-- One line for every base that is not in the table. -/
def problems (t : ClassTable) : List String :=
  t.records.flatMap fun c =>
    (c.baseNames.filter (!t.contains ·)).map fun base =>
      "class " ++ c.key ++ " has unknown base " ++ base

theorem class?_eq_none_iff {t : ClassTable} {key : String} :
    t.class? key = none ↔ key ∉ t.keys := by
  simp [class?, keys]

theorem basesOf_of_not_mem {t : ClassTable} {key : String} (h : key ∉ t.keys) :
    t.basesOf key = [] := by
  simp [basesOf, class?_eq_none_iff.2 h]

end ClassTable

end CallGraphs
