/-!
# Counting

Searches in this library end because something is left out of a finite list
at each step.  The lemmas here say when a count of list elements goes down.
-/

namespace CallGraphs

variable {α : Type}

/-- The sum of a measure over a list. -/
def sumOf (measure : α → Nat) : List α → Nat
  | [] => 0
  | a :: rest => measure a + sumOf measure rest

/-- Weakening a predicate does not lower its count. -/
theorem countP_le_countP {p q : α → Bool} (h : ∀ x, q x = true → p x = true) (l : List α) :
    l.countP q ≤ l.countP p := by
  induction l with
  | nil => simp
  | cons a rest ih =>
    by_cases hq : q a = true
    · simp [hq, h a hq, ih]
    · simp [List.countP_cons, hq]
      omega

/-- A count goes down when the predicate loses an element of the list. -/
theorem countP_lt_countP {p q : α → Bool} (h : ∀ x, q x = true → p x = true) {a : α}
    {l : List α} (ha : a ∈ l) (hp : p a = true) (hq : q a = false) :
    l.countP q < l.countP p := by
  induction l with
  | nil => simp at ha
  | cons b rest ih =>
    rcases List.mem_cons.1 ha with rfl | ha
    · have := countP_le_countP h rest
      simp [hp, hq]
      omega
    · have := ih ha
      by_cases hb : q b = true
      · simp [hb, h b hb, this]
      · simp [List.countP_cons, hb]
        omega

variable [DecidableEq α]

/-- The number of elements of a list that were not seen. -/
def unseen (all seen : List α) : Nat := all.countP (· ∉ seen)

/-- Seeing more leaves less unseen. -/
theorem unseen_le_of_subset {all seen more : List α} (h : seen ⊆ more) :
    unseen all more ≤ unseen all seen :=
  countP_le_countP (fun x hx => by
    simp only [decide_eq_true_eq] at hx ⊢
    exact fun hs => hx (h hs)) all

/-- Seeing more, and an element among it for the first time, leaves strictly less unseen. -/
theorem unseen_lt {all seen more : List α} {a : α} (ha : a ∈ all) (h : a ∉ seen)
    (hmore : seen ⊆ more) (hnew : a ∈ more) : unseen all more < unseen all seen :=
  countP_lt_countP (fun x hx => by
    simp only [decide_eq_true_eq] at hx ⊢
    exact fun hs => hx (hmore hs)) ha (by simp [h]) (by simp [hnew])

/-- Seeing an element for the first time leaves strictly less unseen. -/
theorem unseen_cons_lt {all seen : List α} {a : α} (ha : a ∈ all) (h : a ∉ seen) :
    unseen all (a :: seen) < unseen all seen :=
  unseen_lt ha h (List.subset_cons_self a seen) List.mem_cons_self

end CallGraphs
