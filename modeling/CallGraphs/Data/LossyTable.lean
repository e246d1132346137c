import Std.Data.HashMap

/-!
# Tables that forget

A table with a fixed number of places.  The place of an entry is computed from
its key, and a new entry takes the place of the one that was there before.
-/

namespace CallGraphs

/-- The hash of a list of numbers, one after the other, in 64 bits. -/
def fnvHash (key : List Nat) : UInt64 :=
  key.foldl (fun hash n => (hash ^^^ n.toUInt64) * 1099511628211) 14695981039346656037

/-- A table of numbers by keys that are lists of numbers. -/
structure LossyTable where
  /-- The number of places. -/
  size : Nat
  entries : Std.HashMap Nat (List Nat × Nat) := {}

namespace LossyTable

/-- The place of a key. -/
def place (t : LossyTable) (key : List Nat) : Nat := (fnvHash key).toNat % t.size

/-- What is kept for a key. -/
def find? (t : LossyTable) (key : List Nat) : Option Nat :=
  match t.entries[t.place key]? with
  | some (found, value) => if found = key then some value else none
  | none => none

/-- The table with an entry, whatever stood in its place. -/
def insert (t : LossyTable) (key : List Nat) (value : Nat) : LossyTable :=
  { t with entries := t.entries.insert (t.place key) (key, value) }

theorem find?_insert_self (t : LossyTable) (key : List Nat) (value : Nat) :
    (t.insert key value).find? key = some value := by
  simp [find?, insert, place]

end LossyTable

end CallGraphs
