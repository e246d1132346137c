import CallGraphs.Data.Worklist
import Mathlib.Data.List.Nodup
import Mathlib.Logic.Relation

/-!
# What worklists come to

A queue hands out its vertices and whatever steps lead to from there, each once
(`mem_queueSearch_iff`, `nodup_queueSearch`).  A stack that starts with nothing found
finds what one step or more lead to (`mem_stackSearch_iff`).  Both follow from what is
true of any list and any record of what was met: whatever comes out is reached from the
list, and steps from there lead out of it only to what was met before (`Served`,
`Found`).
-/

namespace CallGraphs

open Relation

variable {α : Type} [DecidableEq α] {next : α → List α} {all : List α}
  {hall : ∀ a, next a ⊆ all} {a : α}

/-! ## Queues -/

/-- After some vertices are put behind a queue, the new ones are in it, and all were seen. -/
theorem mem_foldl_enqueue (l : List α) (s : List α × List α) :
    (a ∈ (l.foldl enqueue s).1 ↔ a ∈ s.1 ∨ a ∈ l ∧ a ∉ s.2) ∧
      (a ∈ (l.foldl enqueue s).2 ↔ a ∈ l ∨ a ∈ s.2) := by
  induction l generalizing s with
  | nil => simp
  | cons b l ih =>
      rw [List.foldl_cons, (ih _).1, (ih _).2, enqueue]
      split
      · grind
      · grind

theorem nodup_foldl_enqueue (l : List α) {s : List α × List α} (hqueue : s.1 ⊆ s.2)
    (hnodup : s.1.Nodup) : (l.foldl enqueue s).1.Nodup := by
  induction l generalizing s with
  | nil => exact hnodup
  | cons b l ih =>
      rw [List.foldl_cons, enqueue]
      split
      · exact ih hqueue hnodup
      · next hnew =>
        have hadded : (s.1 ++ [b]).Nodup := by simpa using hnodup.concat fun hb => hnew (hqueue hb)
        refine ih ?_ hadded
        exact List.append_subset.mpr ⟨fun x hx => List.mem_cons_of_mem _ (hqueue hx), by simp⟩

/-- What comes out of a queue when some vertices were seen. -/
structure Served (next : α → List α) (queue seen out : List α) : Prop where
  nodup : out.Nodup
  waiting : queue ⊆ out
  fresh : ∀ a ∈ out, a ∈ queue ∨ a ∉ seen
  closed : ∀ a ∈ out, ∀ b ∈ next a, b ∈ out ∨ b ∈ seen
  reached : ∀ b ∈ out, ∃ a ∈ queue, ReflTransGen (fun x y => y ∈ next x) a b

/-- The first vertex of a queue is handed out and its steps are followed. -/
theorem Served.cons {queue seen out : List α} (hqueue : a :: queue ⊆ seen)
    (hnodup : (a :: queue).Nodup)
    (h : Served next ((next a).foldl enqueue (queue, seen)).1
      ((next a).foldl enqueue (queue, seen)).2 out) : Served next (a :: queue) seen (a :: out) := by
  have hwait : ∀ {b}, b ∈ ((next a).foldl enqueue (queue, seen)).1 ↔
      b ∈ queue ∨ b ∈ next a ∧ b ∉ seen := (mem_foldl_enqueue _ _).1
  have hseen : ∀ {b}, b ∈ ((next a).foldl enqueue (queue, seen)).2 ↔ b ∈ next a ∨ b ∈ seen :=
    (mem_foldl_enqueue _ _).2
  obtain ⟨ha, hrest⟩ := List.cons_subset.mp hqueue
  obtain ⟨hnew, -⟩ := List.nodup_cons.mp hnodup
  have hnext : ∀ b ∈ next a, b ∈ out ∨ b ∈ seen := by
    intro b hb
    by_cases hold : b ∈ seen
    · exact Or.inr hold
    · exact Or.inl (h.waiting (hwait.mpr (Or.inr ⟨hb, hold⟩)))
  refine ⟨List.nodup_cons.mpr ⟨fun hout => ?_, h.nodup⟩, ?_, fun b hb => ?_, fun b hb c hc => ?_,
    fun b hb => ?_⟩
  · rcases h.fresh a hout with hwaits | hunseen
    · exact (hwait.mp hwaits).elim hnew fun hstep => hstep.2 ha
    · exact hunseen (hseen.mpr (Or.inr ha))
  · exact List.cons_subset.mpr ⟨List.mem_cons_self, fun b hb =>
      List.mem_cons_of_mem _ (h.waiting (hwait.mpr (Or.inl hb)))⟩
  · rcases List.mem_cons.mp hb with rfl | hb
    · exact Or.inl List.mem_cons_self
    · rcases h.fresh b hb with hwaits | hunseen
      · exact (hwait.mp hwaits).imp (List.mem_cons_of_mem _) And.right
      · exact Or.inr fun hold => hunseen (hseen.mpr (Or.inr hold))
  · refine Or.imp_left (List.mem_cons_of_mem _) ?_
    rcases List.mem_cons.mp hb with rfl | hb
    · exact hnext c hc
    · rcases h.closed b hb c hc with hout | hmet
      · exact Or.inl hout
      · exact (hseen.mp hmet).elim (hnext c) Or.inr
  · rcases List.mem_cons.mp hb with rfl | hb
    · exact ⟨b, List.mem_cons_self, .refl⟩
    · obtain ⟨c, hc, hpath⟩ := h.reached b hb
      rcases hwait.mp hc with hc | ⟨hc, -⟩
      · exact ⟨c, List.mem_cons_of_mem _ hc, hpath⟩
      · exact ⟨a, List.mem_cons_self, .head hc hpath⟩

theorem served_queueSearch (s : List α × List α) (hqueue : s.1 ⊆ s.2) (hnodup : s.1.Nodup) :
    Served next s.1 s.2 (queueSearch next all hall s) := by
  induction s using queueSearch.induct next all hall with
  | case1 seen =>
      rw [queueSearch]
      constructor <;> simp
  | case2 a queue seen ih =>
      rw [queueSearch]
      have hrest := (List.cons_subset.mp hqueue).2
      refine .cons hqueue hnodup (ih (fun b hb => ?_) ?_)
      · rw [(mem_foldl_enqueue _ _).1] at hb
        exact (mem_foldl_enqueue _ _).2.mpr (hb.symm.imp And.left (hrest ·))
      · exact nodup_foldl_enqueue _ hrest (List.nodup_cons.mp hnodup).2

section
variable {start : α}

theorem served_start : Served next [start] [start] (queueSearch next all hall ([start], [start])) :=
  served_queueSearch ([start], [start]) (List.Subset.refl _) (List.nodup_singleton start)

theorem nodup_queueSearch : (queueSearch next all hall ([start], [start])).Nodup :=
  served_start.nodup

/-- From one vertex, a queue hands out that vertex and all that steps lead to. -/
theorem mem_queueSearch_iff : a ∈ queueSearch next all hall ([start], [start]) ↔
    ReflTransGen (fun x y => y ∈ next x) start a := by
  have h : Served next [start] [start] (queueSearch next all hall ([start], [start])) :=
    served_start
  have hstart := h.waiting (List.mem_singleton.mpr rfl)
  constructor
  · intro ha
    obtain ⟨b, hb, hpath⟩ := h.reached a ha
    obtain rfl := List.mem_singleton.mp hb
    exact hpath
  · intro hpath
    induction hpath with
    | refl => exact hstart
    | tail _ hstep ih =>
        exact (h.closed _ ih _ hstep).elim id fun hseen => List.mem_singleton.mp hseen ▸ hstart

end

/-! ## Stacks -/

section
variable [Ord α] [Std.TransOrd α] [Std.LawfulEqOrd α]

/-- After some vertices are put on a stack, the new ones are on it, and all are found. -/
theorem mem_foldl_push (l : List α) (s : List α × SortedSet α) :
    (a ∈ (l.foldl push s).1 ↔ a ∈ s.1 ∨ a ∈ l ∧ a ∉ s.2) ∧
      (a ∈ (l.foldl push s).2 ↔ a ∈ l ∨ a ∈ s.2) := by
  induction l generalizing s with
  | nil => simp
  | cons b l ih =>
      rw [List.foldl_cons, (ih _).1, (ih _).2, push]
      split
      · grind
      · simp only [SortedSet.mem_insert, List.mem_cons]
        grind

/-- What is found from a stack when some vertices were found before. -/
structure Found (next : α → List α) (stack : List α) (found out : SortedSet α) : Prop where
  kept : ∀ a ∈ found, a ∈ out
  left : ∀ a ∈ stack, ∀ b ∈ next a, b ∈ out
  closed : ∀ a ∈ out, a ∉ found → ∀ b ∈ next a, b ∈ out
  reached : ∀ b ∈ out, b ∈ found ∨ ∃ a ∈ stack, TransGen (fun x y => y ∈ next x) a b

/-- The last vertex of a stack is taken off and its steps are followed. -/
theorem Found.cons {stack : List α} {found out : SortedSet α}
    (h : Found next ((next a).foldl push (stack, found)).1
      ((next a).foldl push (stack, found)).2 out) : Found next (a :: stack) found out := by
  have hstack : ∀ {b}, b ∈ ((next a).foldl push (stack, found)).1 ↔
      b ∈ stack ∨ b ∈ next a ∧ b ∉ found := (mem_foldl_push _ _).1
  have hfound : ∀ {b}, b ∈ ((next a).foldl push (stack, found)).2 ↔ b ∈ next a ∨ b ∈ found :=
    (mem_foldl_push _ _).2
  refine ⟨fun b hb => h.kept b (hfound.mpr (Or.inr hb)), fun b hb c hc => ?_,
    fun b hb hnew c hc => ?_, fun b hb => ?_⟩
  · rcases List.mem_cons.mp hb with rfl | hb
    · exact h.kept c (hfound.mpr (Or.inl hc))
    · exact h.left b (hstack.mpr (Or.inl hb)) c hc
  · by_cases hstep : b ∈ next a
    · exact h.left b (hstack.mpr (Or.inr ⟨hstep, hnew⟩)) c hc
    · exact h.closed b hb (fun hmet => (hfound.mp hmet).elim hstep hnew) c hc
  · rcases h.reached b hb with hmet | ⟨c, hc, hpath⟩
    · exact (hfound.mp hmet).symm.imp_right fun hstep => ⟨a, List.mem_cons_self, .single hstep⟩
    · rcases hstack.mp hc with hc | ⟨hc, -⟩
      · exact Or.inr ⟨c, List.mem_cons_of_mem _ hc, hpath⟩
      · exact Or.inr ⟨a, List.mem_cons_self, .head hc hpath⟩

theorem found_stackSearch (s : List α × SortedSet α) :
    Found next s.1 s.2 (stackSearch next all hall s) := by
  induction s using stackSearch.induct next all hall with
  | case1 found =>
      rw [stackSearch]
      exact ⟨fun _ h => h, by simp, fun _ h hnew => absurd h hnew, fun _ h => Or.inl h⟩
  | case2 a stack found ih =>
      rw [stackSearch]
      exact .cons ih

/-- From one vertex, a stack finds what one step or more lead to. -/
theorem mem_stackSearch_iff {start : α} :
    a ∈ stackSearch next all hall ([start], .empty) ↔
      TransGen (fun x y => y ∈ next x) start a := by
  have h : Found next [start] .empty (stackSearch next all hall ([start], .empty)) :=
    found_stackSearch ([start], .empty)
  constructor
  · intro ha
    obtain ⟨b, hb, hpath⟩ := (h.reached a ha).resolve_left (SortedSet.not_mem_empty a)
    obtain rfl := List.mem_singleton.mp hb
    exact hpath
  · intro hpath
    induction hpath with
    | single hstep => exact h.left start List.mem_cons_self _ hstep
    | tail _ hstep ih => exact h.closed _ ih (SortedSet.not_mem_empty _) _ hstep

end

end CallGraphs
