import Mathlib.Data.List.Basic

/-!
# Lists that repeat themselves

A list echoes another one if it is that list with elements put in again that came
before.  Whoever goes through such a list, and has nothing to do at an element
that was there before, ends up where the other list leads (`Echoes.foldl`).
-/

namespace CallGraphs

/-- The second list is the first one with repetitions: of elements that came before in it, or that
were seen before. -/
inductive Echoes {α : Type} : List α → List α → List α → Prop
  | nil {seen : List α} : Echoes seen [] []
  | say {seen l l' : List α} {x : α} : Echoes (x :: seen) l l' → Echoes seen (x :: l) (x :: l')
  | again {seen l l' : List α} {x : α} : x ∈ seen → Echoes seen l l' → Echoes seen l (x :: l')

namespace Echoes

variable {α β : Type} {seen seen' l l' m m' : List α}

theorem refl (seen l : List α) : Echoes seen l l := by
  induction l generalizing seen with
  | nil => exact .nil
  | cons x l ih => exact .say (ih _)

theorem mono (h : Echoes seen l l') (hseen : seen ⊆ seen') : Echoes seen' l l' := by
  induction h generalizing seen' with
  | nil => exact .nil
  | say _ ih => exact .say (ih (List.cons_subset_cons _ hseen))
  | again hx _ ih => exact .again (hseen hx) (ih hseen)

theorem append (h : Echoes seen l l') (h' : Echoes seen m m') :
    Echoes seen (l ++ m) (l' ++ m') := by
  induction h with
  | nil => exact h'
  | say _ ih => exact .say (ih (h'.mono (List.subset_cons_self _ _)))
  | again hx _ ih => exact .again hx (ih h')

theorem sayAll (l : List α) (h : Echoes (l ++ seen) m m') : Echoes seen (l ++ m) (l ++ m') := by
  induction l generalizing seen with
  | nil => exact h
  | cons x l ih =>
      have hperm : (x :: (l ++ seen)).Perm (l ++ x :: seen) := List.perm_middle.symm
      exact .say (ih (h.mono hperm.subset))

theorem againAll (hl : l ⊆ seen) (h : Echoes seen m m') : Echoes seen m (l ++ m') := by
  induction l with
  | nil => exact h
  | cons x l ih =>
      exact .again (hl List.mem_cons_self) (ih fun y hy => hl (List.mem_cons_of_mem _ hy))

/-- A part of a list is said again further on. -/
theorem insert (l m r : List α) (hm : m ⊆ l) : Echoes seen (l ++ r) (l ++ (m ++ r)) :=
  sayAll l (againAll (fun _ hx => List.mem_append_left _ (hm hx)) (refl _ r))

theorem flatMap (h : Echoes seen l l') (f : α → List β) :
    Echoes (seen.flatMap f) (l.flatMap f) (l'.flatMap f) := by
  induction h with
  | nil => exact .nil
  | say _ ih => exact sayAll _ ih
  | again hx _ ih => exact againAll (fun y hy => List.mem_flatMap.mpr ⟨_, hx, hy⟩) ih

theorem filterMap (h : Echoes seen l l') (f : α → Option β) :
    Echoes (seen.filterMap f) (l.filterMap f) (l'.filterMap f) := by
  simp only [List.filterMap_eq_flatMap_toList]
  exact h.flatMap fun x => (f x).toList

theorem mem_or_mem (h : Echoes seen l l') {x : α} (hx : x ∈ l') : x ∈ l ∨ x ∈ seen := by
  induction h with
  | nil => exact absurd hx List.not_mem_nil
  | @say seen l l' y _ ih =>
      rcases List.mem_cons.mp hx with rfl | hx
      · exact Or.inl List.mem_cons_self
      · rcases ih hx with hx | hx
        · exact Or.inl (List.mem_cons_of_mem _ hx)
        · rcases List.mem_cons.mp hx with rfl | hx
          · exact Or.inl List.mem_cons_self
          · exact Or.inr hx
  | again hseen _ ih =>
      rcases List.mem_cons.mp hx with rfl | hx
      · exact Or.inr hseen
      · exact ih hx

theorem subset (h : Echoes seen l l') : l ⊆ l' := by
  induction h with
  | nil => exact List.Subset.refl _
  | say _ ih => exact List.cons_subset_cons _ ih
  | again _ _ ih => exact fun x hx => List.mem_cons_of_mem _ (ih hx)

/-- A list that repeats itself has the same elements. -/
theorem mem_iff (h : Echoes [] l l') (x : α) : x ∈ l ↔ x ∈ l' :=
  ⟨fun hx => h.subset hx, fun hx => (h.mem_or_mem hx).resolve_right List.not_mem_nil⟩

/-- If a step makes sure that the same step has nothing more to do, and this stays so, then
repetitions change nothing. -/
theorem foldl {σ τ : Type} {R : σ → τ → Prop} {D : α → τ → Prop} {step : σ → α → σ}
    {step' : τ → α → τ} (hstep : ∀ s t x, R s t → R (step s x) (step' t x))
    (hdone : ∀ s t x, R s t → D x (step' t x))
    (hkeep : ∀ s t x y, R s t → D y t → D y (step' t x))
    (hidle : ∀ s t x, R s t → D x t → R s (step' t x)) (h : Echoes seen l l') {s : σ} {t : τ}
    (hst : R s t) (hseen : ∀ x ∈ seen, D x t) : R (l.foldl step s) (l'.foldl step' t) := by
  induction h generalizing s t with
  | nil => exact hst
  | say _ ih =>
      refine ih (hstep _ _ _ hst) fun y hy => ?_
      rcases List.mem_cons.mp hy with rfl | hy
      · exact hdone _ _ _ hst
      · exact hkeep _ _ _ _ hst (hseen y hy)
  | again hx _ ih =>
      exact ih (hidle _ _ _ hst (hseen _ hx)) fun y hy => hkeep _ _ _ _ hst (hseen y hy)

end Echoes

end CallGraphs
