import CallGraphs.Data.Counting
import CallGraphs.Data.SortedSet

/-!
# Worklists

Searches for what steps lead to.  A vertex is put on a list when it is first
met, and taken from there to go on from it.  A queue hands out the vertices in
the order in which they were met, a stack the last one first.  All that steps
lead to lies in a list `all`, so there is an end to it.
-/

namespace CallGraphs

variable {α : Type} [DecidableEq α]

/-! ## Queues -/

/-- Puts a vertex behind a queue and among those seen, unless it was seen before. -/
def enqueue (s : List α × List α) (a : α) : List α × List α :=
  if a ∈ s.2 then s else (s.1 ++ [a], a :: s.2)

theorem unseen_enqueue_le {all : List α} {a : α} (ha : a ∈ all) (s : List α × List α) :
    unseen all (enqueue s a).2 + (enqueue s a).1.length ≤ unseen all s.2 + s.1.length := by
  rw [enqueue]
  split
  · exact Nat.le_refl _
  · next hnew =>
    have := unseen_cons_lt ha hnew
    simp only [List.length_append, List.length_singleton]
    omega

theorem unseen_foldl_enqueue_le {all l : List α} (hl : l ⊆ all) (s : List α × List α) :
    unseen all (l.foldl enqueue s).2 + (l.foldl enqueue s).1.length ≤
      unseen all s.2 + s.1.length := by
  induction l generalizing s with
  | nil => exact Nat.le_refl _
  | cons a rest ih =>
    obtain ⟨ha, hrest⟩ := List.cons_subset.1 hl
    exact Nat.le_trans (ih hrest _) (unseen_enqueue_le ha s)

/-- The vertices of a queue and those that are met from there, in the order in which they are
taken from the queue. -/
def queueSearch (next : α → List α) (all : List α) (hall : ∀ a, next a ⊆ all) :
    List α × List α → List α
  | ([], _) => []
  | (a :: queue, seen) =>
    a :: queueSearch next all hall ((next a).foldl enqueue (queue, seen))
termination_by s => unseen all s.2 + s.1.length
decreasing_by
  refine Nat.lt_of_le_of_lt (unseen_foldl_enqueue_le (hall a) _) ?_
  simp

/-! ## Stacks -/

section
variable [Ord α] [Std.TransOrd α]

/-- Puts a vertex on a stack and among those found, unless it was found before. -/
def push (s : List α × SortedSet α) (a : α) : List α × SortedSet α :=
  if a ∈ s.2 then s else (a :: s.1, s.2.insert a)

theorem unseen_push_le [Std.LawfulEqOrd α] {all : List α} {a : α} (ha : a ∈ all)
    (s : List α × SortedSet α) :
    unseen all (push s a).2.toList + (push s a).1.length ≤
      unseen all s.2.toList + s.1.length := by
  rw [push]
  split
  · exact Nat.le_refl _
  · next hnew =>
    have hless : unseen all (s.2.insert a).toList < unseen all s.2.toList :=
      unseen_lt ha hnew (fun x hx => mem_insertSorted_iff.2 (Or.inr hx))
        (mem_insertSorted_iff.2 (Or.inl rfl))
    simp only [List.length_cons]
    omega

theorem unseen_foldl_push_le [Std.LawfulEqOrd α] {all l : List α} (hl : l ⊆ all)
    (s : List α × SortedSet α) :
    unseen all (l.foldl push s).2.toList + (l.foldl push s).1.length ≤
      unseen all s.2.toList + s.1.length := by
  induction l generalizing s with
  | nil => exact Nat.le_refl _
  | cons a rest ih =>
    obtain ⟨ha, hrest⟩ := List.cons_subset.1 hl
    exact Nat.le_trans (ih hrest _) (unseen_push_le ha s)

/-- All that is found once nothing is left on the stack. -/
def stackSearch [Std.LawfulEqOrd α] (next : α → List α) (all : List α)
    (hall : ∀ a, next a ⊆ all) : List α × SortedSet α → SortedSet α
  | ([], found) => found
  | (a :: stack, found) => stackSearch next all hall ((next a).foldl push (stack, found))
termination_by s => unseen all s.2.toList + s.1.length
decreasing_by
  refine Nat.lt_of_le_of_lt (unseen_foldl_push_le (hall a) _) ?_
  simp

end

end CallGraphs
