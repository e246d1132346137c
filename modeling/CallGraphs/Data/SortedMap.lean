import CallGraphs.Data.SortedSet

/-!
# Sorted maps

Finite maps kept as the list of their entries, with strictly increasing keys.  As
with sorted sets the order is part of the type, so whatever is read off a map
comes out sorted by key.
-/

namespace CallGraphs

/-- Puts a value in its place among entries with increasing keys, for the value of its key if there
is one. -/
def insertEntry {κ ν : Type} [Ord κ] (key : κ) (value : ν) : List (κ × ν) → List (κ × ν)
  | [] => [(key, value)]
  | entry :: rest =>
    match compare key entry.1 with
    | .lt => (key, value) :: entry :: rest
    | .eq => (key, value) :: rest
    | .gt => entry :: insertEntry key value rest

section
variable {κ ν : Type} [Ord κ] {key : κ} {value : ν} {l : List (κ × ν)}

/-- Nothing comes before itself. -/
theorem ne_of_compare_lt [Std.TransOrd κ] {a b : κ} (h : compare a b = .lt) : a ≠ b := by
  rintro rfl
  simp [Std.ReflCmp.compare_self] at h

theorem mem_of_mem_insertEntry {x : κ × ν} (h : x ∈ insertEntry key value l) :
    x = (key, value) ∨ x ∈ l := by
  induction l with
  | nil => simpa [insertEntry] using h
  | cons entry rest ih =>
    rw [insertEntry] at h
    split at h
    · simpa using h
    · rcases List.mem_cons.1 h with h | h
      · exact Or.inl h
      · exact Or.inr (List.mem_cons_of_mem _ h)
    · rcases List.mem_cons.1 h with h | h
      · simp [h]
      · rcases ih h with h | h
        · exact Or.inl h
        · exact Or.inr (List.mem_cons_of_mem _ h)

theorem pairwise_insertEntry [Std.TransOrd κ]
    (h : l.Pairwise fun a b => compare a.1 b.1 = .lt) :
    (insertEntry key value l).Pairwise fun a b => compare a.1 b.1 = .lt := by
  induction l with
  | nil => simp [insertEntry]
  | cons entry rest ih =>
    obtain ⟨hentry, hrest⟩ := List.pairwise_cons.1 h
    rw [insertEntry]
    split
    · next hlt =>
      refine List.pairwise_cons.2 ⟨fun x hx => ?_, h⟩
      rcases List.mem_cons.1 hx with rfl | hx
      · exact hlt
      · exact Std.TransCmp.lt_trans hlt (hentry x hx)
    · next heq =>
      exact List.pairwise_cons.2
        ⟨fun x hx => Std.TransCmp.lt_of_eq_of_lt heq (hentry x hx), hrest⟩
    · next hgt =>
      refine List.pairwise_cons.2 ⟨fun x hx => ?_, ih hrest⟩
      rcases mem_of_mem_insertEntry hx with rfl | hx
      · exact Std.OrientedCmp.lt_of_gt hgt
      · exact hentry x hx

theorem mem_insertEntry_iff [Std.TransOrd κ] [Std.LawfulEqOrd κ] {x : κ × ν}
    (h : l.Pairwise fun a b => compare a.1 b.1 = .lt) :
    x ∈ insertEntry key value l ↔ x = (key, value) ∨ x ∈ l ∧ x.1 ≠ key := by
  induction l with
  | nil => simp [insertEntry]
  | cons entry rest ih =>
    obtain ⟨hentry, hrest⟩ := List.pairwise_cons.1 h
    rw [insertEntry]
    split
    · next hlt =>
      have hbefore : ∀ y ∈ entry :: rest, y.1 ≠ key := by
        intro y hy
        rcases List.mem_cons.1 hy with rfl | hy
        · exact (ne_of_compare_lt hlt).symm
        · exact (ne_of_compare_lt (Std.TransCmp.lt_trans hlt (hentry y hy))).symm
      rw [List.mem_cons]
      exact or_congr_right ⟨fun hx => ⟨hx, hbefore x hx⟩, And.left⟩
    · next heq =>
      obtain rfl : key = entry.1 := Std.LawfulEqOrd.eq_of_compare heq
      rw [List.mem_cons, List.mem_cons]
      refine or_congr_right ⟨fun hx => ⟨Or.inr hx, (ne_of_compare_lt (hentry x hx)).symm⟩, ?_⟩
      rintro ⟨rfl | hx, hne⟩
      · exact absurd rfl hne
      · exact hx
    · next hgt =>
      have hne : entry.1 ≠ key := ne_of_compare_lt (Std.OrientedCmp.lt_of_gt hgt)
      rw [List.mem_cons, List.mem_cons, ih hrest]
      constructor
      · rintro (rfl | rfl | ⟨hx, hkey⟩)
        · exact Or.inr ⟨Or.inl rfl, hne⟩
        · exact Or.inl rfl
        · exact Or.inr ⟨Or.inr hx, hkey⟩
      · rintro (rfl | ⟨rfl | hx, hkey⟩)
        · exact Or.inr (Or.inl rfl)
        · exact Or.inl rfl
        · exact Or.inr (Or.inr ⟨hx, hkey⟩)

end

/-- A finite map, given by its entries in the order of their keys. -/
structure SortedMap (κ ν : Type) [Ord κ] where
  /-- The keys with their values, in increasing order of the keys. -/
  entries : List (κ × ν)
  /-- Every key comes strictly before the later ones. -/
  increasing : entries.Pairwise fun a b => compare a.1 b.1 = .lt

namespace SortedMap

variable {κ ν : Type} [Ord κ]

/-- The map without entries. -/
def empty : SortedMap κ ν := ⟨[], .nil⟩

/-- The keys, in increasing order. -/
def keys (m : SortedMap κ ν) : List κ := m.entries.map (·.1)

variable [Std.TransOrd κ]

/-- The map with a value for a key, whatever value the key had. -/
def insert (key : κ) (value : ν) (m : SortedMap κ ν) : SortedMap κ ν :=
  ⟨insertEntry key value m.entries, pairwise_insertEntry m.increasing⟩

/-- The map with a value for a key that had none. -/
def insertNew [DecidableEq κ] (key : κ) (value : ν) (m : SortedMap κ ν) : SortedMap κ ν :=
  if key ∈ m.keys then m else m.insert key value

@[simp]
theorem mem_insert [Std.LawfulEqOrd κ] {key : κ} {value : ν} {m : SortedMap κ ν} {x : κ × ν} :
    x ∈ (m.insert key value).entries ↔ x = (key, value) ∨ x ∈ m.entries ∧ x.1 ≠ key :=
  mem_insertEntry_iff m.increasing

/-- No key stands in a map twice. -/
theorem nodup_keys (m : SortedMap κ ν) : m.keys.Nodup :=
  List.pairwise_map.2 (m.increasing.imp ne_of_compare_lt)

end SortedMap

end CallGraphs
