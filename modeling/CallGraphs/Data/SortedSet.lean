/-!
# Sorted sets

Finite sets kept as the strictly increasing list of their elements.  The
order is part of the type, so two sets with the same members are the same
value, and whatever is read off a set comes out sorted.
-/

namespace CallGraphs

/-- Puts `a` in its place in an increasing list, once. -/
def insertSorted {α : Type} [Ord α] (a : α) : List α → List α
  | [] => [a]
  | b :: rest =>
    match compare a b with
    | .lt => a :: b :: rest
    | .eq => b :: rest
    | .gt => b :: insertSorted a rest

section
variable {α : Type} [Ord α]

theorem mem_insertSorted_iff [Std.LawfulEqOrd α] {a x : α} {l : List α} :
    x ∈ insertSorted a l ↔ x = a ∨ x ∈ l := by
  induction l with
  | nil => simp [insertSorted]
  | cons b rest ih =>
    rw [insertSorted]
    split
    · simp
    · next h =>
      have : a = b := Std.LawfulEqOrd.eq_of_compare h
      subst this
      simp
    · simp only [List.mem_cons, ih]
      constructor
      · rintro (h | h | h) <;> simp [h]
      · rintro (h | h | h) <;> simp [h]

/-- An insertion adds no element but the new one. -/
theorem mem_of_mem_insertSorted {a x : α} {l : List α} (h : x ∈ insertSorted a l) :
    x = a ∨ x ∈ l := by
  induction l with
  | nil => simpa [insertSorted] using h
  | cons b rest ih =>
    rw [insertSorted] at h
    split at h
    · simpa using h
    · exact Or.inr h
    · rcases List.mem_cons.1 h with h | h
      · simp [h]
      · rcases ih h with h | h <;> simp [h]

theorem pairwise_insertSorted [Std.TransOrd α] {a : α} {l : List α}
    (h : l.Pairwise (fun x y => compare x y = .lt)) :
    (insertSorted a l).Pairwise (fun x y => compare x y = .lt) := by
  induction l with
  | nil => simp [insertSorted]
  | cons b rest ih =>
    obtain ⟨hb, hrest⟩ := List.pairwise_cons.1 h
    rw [insertSorted]
    split
    · next hab =>
      refine List.pairwise_cons.2 ⟨fun x hx => ?_, h⟩
      rcases List.mem_cons.1 hx with rfl | hx
      · exact hab
      · exact Std.TransCmp.lt_trans hab (hb x hx)
    · exact h
    · next hab =>
      refine List.pairwise_cons.2 ⟨fun x hx => ?_, ih hrest⟩
      rcases mem_of_mem_insertSorted hx with rfl | hx
      · exact Std.OrientedCmp.lt_of_gt hab
      · exact hb x hx

/-- An increasing list is told by its elements. -/
theorem eq_of_increasing [Std.TransOrd α] {l l' : List α}
    (h : l.Pairwise (fun x y => compare x y = .lt))
    (h' : l'.Pairwise (fun x y => compare x y = .lt)) (hmem : ∀ x, x ∈ l ↔ x ∈ l') : l = l' := by
  have irrefl : ∀ x : α, compare x x ≠ .lt := by
    intro x hx
    simp [Std.ReflCmp.compare_self] at hx
  induction l generalizing l' with
  | nil =>
    cases l' with
    | nil => rfl
    | cons b r' => exact absurd ((hmem b).2 List.mem_cons_self) List.not_mem_nil
  | cons a r ih =>
    cases l' with
    | nil => exact absurd ((hmem a).1 List.mem_cons_self) List.not_mem_nil
    | cons b r' =>
      obtain ⟨ha, hr⟩ := List.pairwise_cons.1 h
      obtain ⟨hb, hr'⟩ := List.pairwise_cons.1 h'
      -- the least element of both comes first
      have hab : a = b := by
        rcases List.mem_cons.1 ((hmem a).1 List.mem_cons_self) with hab | hab
        · exact hab
        · rcases List.mem_cons.1 ((hmem b).2 List.mem_cons_self) with hba | hba
          · exact hba.symm
          · exact absurd (Std.TransCmp.lt_trans (ha b hba) (hb a hab)) (irrefl a)
      subst hab
      refine congrArg _ (ih hr hr' fun x => ?_)
      constructor
      · intro hx
        rcases List.mem_cons.1 ((hmem x).1 (List.mem_cons_of_mem _ hx)) with rfl | hx'
        · exact absurd (ha x hx) (irrefl x)
        · exact hx'
      · intro hx
        rcases List.mem_cons.1 ((hmem x).2 (List.mem_cons_of_mem _ hx)) with rfl | hx'
        · exact absurd (hb x hx) (irrefl x)
        · exact hx'

end

/-- A finite set, given by the increasing list of its elements. -/
structure SortedSet (α : Type) [Ord α] where
  /-- The elements, in increasing order. -/
  toList : List α
  /-- Every element comes strictly before the later ones. -/
  increasing : toList.Pairwise (fun a b => compare a b = .lt)

namespace SortedSet

variable {α : Type} [Ord α]

@[ext]
theorem ext {s t : SortedSet α} (h : s.toList = t.toList) : s = t := by
  cases s
  cases t
  cases h
  rfl

instance [DecidableEq α] : DecidableEq (SortedSet α) := fun s t =>
  decidable_of_iff (s.toList = t.toList) ⟨ext, fun h => h ▸ rfl⟩

instance : Membership α (SortedSet α) := ⟨fun s a => a ∈ s.toList⟩

instance [DecidableEq α] (a : α) (s : SortedSet α) : Decidable (a ∈ s) :=
  inferInstanceAs (Decidable (a ∈ s.toList))

theorem mem_def {a : α} {s : SortedSet α} : a ∈ s ↔ a ∈ s.toList := Iff.rfl

/-- The set without elements. -/
def empty : SortedSet α := ⟨[], .nil⟩

instance : EmptyCollection (SortedSet α) := ⟨empty⟩

instance : Inhabited (SortedSet α) := ⟨empty⟩

@[simp]
theorem not_mem_empty (a : α) : ¬ a ∈ (empty : SortedSet α) := by
  simp [mem_def, empty]

/-- Whether the set has no element. -/
def isEmpty (s : SortedSet α) : Bool := s.toList.isEmpty

/-- The number of elements. -/
def size (s : SortedSet α) : Nat := s.toList.length

variable [Std.TransOrd α]

/-- Two sets with the same members are the same. -/
theorem eq_of_forall_mem_iff {s t : SortedSet α} (h : ∀ a, a ∈ s ↔ a ∈ t) : s = t :=
  ext (eq_of_increasing s.increasing t.increasing h)

/-- The set with `a` added. -/
def insert (a : α) (s : SortedSet α) : SortedSet α :=
  ⟨insertSorted a s.toList, pairwise_insertSorted s.increasing⟩

/-- The set with every element of a list added. -/
def insertAll (s : SortedSet α) (l : List α) : SortedSet α :=
  l.foldl (fun s a => s.insert a) s

/-- The elements of a list, each once. -/
def ofList (l : List α) : SortedSet α := empty.insertAll l

/-- The elements of either set. -/
def union (s t : SortedSet α) : SortedSet α := s.insertAll t.toList

@[simp]
theorem mem_insert [Std.LawfulEqOrd α] {a x : α} {s : SortedSet α} :
    x ∈ s.insert a ↔ x = a ∨ x ∈ s :=
  mem_insertSorted_iff

@[simp]
theorem mem_insertAll [Std.LawfulEqOrd α] {x : α} {s : SortedSet α} {l : List α} :
    x ∈ s.insertAll l ↔ x ∈ s ∨ x ∈ l := by
  induction l generalizing s with
  | nil => simp [insertAll]
  | cons a rest ih =>
    have : s.insertAll (a :: rest) = (s.insert a).insertAll rest := rfl
    rw [this, ih, mem_insert, List.mem_cons]
    constructor
    · rintro ((h | h) | h) <;> simp [h]
    · rintro (h | h | h) <;> simp [h]

@[simp]
theorem mem_ofList [Std.LawfulEqOrd α] {x : α} {l : List α} :
    x ∈ (ofList l : SortedSet α) ↔ x ∈ l := by
  simp [ofList]

@[simp]
theorem mem_union [Std.LawfulEqOrd α] {x : α} {s t : SortedSet α} :
    x ∈ s.union t ↔ x ∈ s ∨ x ∈ t :=
  mem_insertAll

end SortedSet

end CallGraphs
