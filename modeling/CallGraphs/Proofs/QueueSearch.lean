import CallGraphs.Proofs.Search

/-!
# Searches by a queue

A program searches with a queue: it takes a vertex from the front and puts behind
what is reached from there for the first time.  Its queue holds the rest of one
layer and the beginning of the next one (`Drains.eq_outlook`), so it comes to
everything by the same steps and in the same order as a search layer by layer
(`Drains.eq_arrivals`).

The start is different from other vertices.  It is left once, at the beginning; a
program does not leave it again when it comes back there.  A search by layers
leaves it again and finds nothing new (`arrivals_filter_ne`).
-/

namespace CallGraphs

variable {α β : Type} [DecidableEq α] {next : α → List β} {target : β → α}

/-! ## First arrivals, part by part -/

theorem firstArrivals_congr {seen seen' : List α} (h : ∀ a, a ∈ seen ↔ a ∈ seen')
    (steps : List β) : firstArrivals target seen steps = firstArrivals target seen' steps := by
  induction steps generalizing seen seen' with
  | nil => rfl
  | cons s steps ih =>
      have hmore : ∀ a, a ∈ target s :: seen ↔ a ∈ target s :: seen' := fun a => by simp [h]
      rw [firstArrivals, firstArrivals, ih h, ih hmore]
      simp only [h]

theorem firstArrivals_append (seen : List α) (l m : List β) :
    firstArrivals target seen (l ++ m) = firstArrivals target seen l ++
      firstArrivals target ((firstArrivals target seen l).map target ++ seen) m := by
  induction l generalizing seen with
  | nil => rfl
  | cons s l ih =>
      rw [List.cons_append, firstArrivals, firstArrivals]
      split
      · exact ih seen
      · rw [ih, List.cons_append]
        refine congrArg _ (congrArg _ (firstArrivals_congr (fun a => ?_) m))
        simp only [List.map_cons, List.cons_append, List.mem_cons, List.mem_append]
        exact or_left_comm

theorem firstArrivals_eq_nil {seen : List α} {steps : List β}
    (h : ∀ s ∈ steps, target s ∈ seen) : firstArrivals target seen steps = [] := by
  refine List.eq_nil_iff_forall_not_mem.mpr fun s hs => ?_
  obtain ⟨hmem, hnew⟩ := mem_of_mem_firstArrivals hs
  exact hnew (h s hmem)

theorem arrivals_congr {seen seen' : List α} (h : ∀ a, a ∈ seen ↔ a ∈ seen')
    (depth level : Nat) (frontier : List α) :
    arrivals next target depth level frontier seen =
      arrivals next target depth level frontier seen' := by
  induction depth generalizing level frontier seen seen' with
  | zero => rfl
  | succ depth ih =>
      rw [arrivals_succ, arrivals_succ, firstArrivals_congr h]
      exact congrArg _ (ih (fun a => by simp only [List.mem_append, h]) _ _)

/-- A vertex all of whose steps lead to what was seen may be left out of a frontier. -/
theorem arrivals_filter_ne {start : α} {seen : List α} (hstart : ∀ s ∈ next start, target s ∈ seen)
    (depth level : Nat) (frontier : List α) :
    arrivals next target depth level (frontier.filter (· ≠ start)) seen =
      arrivals next target depth level frontier seen := by
  have hfirst : firstArrivals target seen ((frontier.filter (· ≠ start)).flatMap next) =
      firstArrivals target seen (frontier.flatMap next) := by
    induction frontier generalizing seen with
    | nil => rfl
    | cons a frontier ih =>
        rw [List.flatMap_cons, firstArrivals_append]
        by_cases ha : a = start
        · subst ha
          rw [firstArrivals_eq_nil hstart]
          simpa using ih hstart
        · rw [List.filter_cons_of_pos (by simpa using ha), List.flatMap_cons, firstArrivals_append,
            ih fun s hs => List.mem_append_right _ (hstart s hs)]
  cases depth with
  | zero => rfl
  | succ depth => rw [arrivals_succ, arrivals_succ, hfirst]

/-! ## Steps of a queue -/

/-- Where a search by a queue stands: the vertices still to leave and the steps by which vertices
were reached first, each with a distance. -/
structure Standing (α β : Type) where
  queue : List (α × Nat)
  reached : List (β × Nat)

namespace Standing

/-- The vertices that no step reaches for the first time any more. -/
def seen (known : List α) (target : β → α) (reached : List (β × Nat)) : List α :=
  reached.map (fun p => target p.1) ++ known

/-- Takes a step from a vertex at some distance.  What it reaches for the first time goes behind the
others, but for the start. -/
def take (known : List α) (target : β → α) (start : α) (level : Nat) (s : Standing α β)
    (step : β) : Standing α β :=
  if target step ∈ seen known target s.reached then s
  else {
    queue := if target step = start then s.queue else s.queue ++ [(target step, level + 1)]
    reached := s.reached ++ [(step, level + 1)] }

/-- The steps of a vertex are taken: those that reach something for the first time are kept. -/
theorem foldl_take (known : List α) (target : β → α) (start : α) (level : Nat) (s : Standing α β)
    (steps : List β) : steps.foldl (take known target start level) s =
      { queue := s.queue ++ (((firstArrivals target (seen known target s.reached) steps).map
          target).filter (· ≠ start)).map (·, level + 1)
        reached := s.reached ++
          (firstArrivals target (seen known target s.reached) steps).map (·, level + 1) } := by
  induction steps generalizing s with
  | nil => simp [firstArrivals]
  | cons step steps ih =>
      rw [List.foldl_cons, ih, firstArrivals, take]
      split
      · rfl
      · have hseen : ∀ a, a ∈ seen known target (s.reached ++ [(step, level + 1)]) ↔
            a ∈ target step :: seen known target s.reached := by
          intro a
          simp only [seen, List.map_append, List.map_cons, List.map_nil, List.append_assoc,
            List.mem_append, List.mem_cons, List.not_mem_nil, or_false]
          exact or_left_comm
        rw [firstArrivals_congr hseen]
        by_cases hstart : target step = start <;> simp [hstart]

/-- What is seen after the steps of a vertex. -/
theorem mem_seen_foldl_take (known : List α) (target : β → α) (start : α) (level : Nat)
    (s : Standing α β) (steps : List β) (a : α) :
    a ∈ seen known target (steps.foldl (take known target start level) s).reached ↔
      a ∈ (firstArrivals target (seen known target s.reached) steps).map target ++
        seen known target s.reached := by
  rw [foldl_take]
  simp only [seen, List.map_append, List.map_map, List.append_assoc, List.mem_append]
  exact or_left_comm

end Standing

/-! ## Layers in a queue -/

/-- What a search by layers still comes to when it has part of one layer to leave and has reached
part of the next one. -/
def outlook (next : α → List β) (target : β → α) :
    (depth level : Nat) → (current upcoming seen : List α) → List (β × Nat)
  | 0, _, _, _, _ => []
  | depth + 1, level, current, upcoming, seen =>
    let fresh := firstArrivals target seen (current.flatMap next)
    fresh.map (·, level + 1) ++ arrivals next target depth (level + 1)
      (upcoming ++ fresh.map target) (fresh.map target ++ seen)

section
variable {start : α} {known : List α}

/-- At the beginning of a layer there is nothing of the next one. -/
theorem outlook_eq_arrivals (depth level : Nat) (current seen : List α) :
    outlook next target depth level current [] seen =
      arrivals next target depth level current seen := by
  cases depth with
  | zero => rfl
  | succ depth => rw [arrivals_succ, outlook, List.nil_append]

/-- At the end of a layer the next one begins. -/
theorem outlook_nil (depth level : Nat) (upcoming seen : List α) :
    outlook next target (depth + 1) level [] upcoming seen =
      outlook next target depth (level + 1) upcoming [] seen := by
  rw [outlook, outlook_eq_arrivals]
  simp [firstArrivals]

/-- One vertex of a layer is left. -/
theorem outlook_cons {seen seen' : List α} {a : α} (hstart : ∀ s ∈ next start, target s ∈ seen)
    (hseen : ∀ x, x ∈ seen' ↔ x ∈ (firstArrivals target seen (next a)).map target ++ seen)
    (depth level : Nat) (current upcoming : List α) :
    outlook next target (depth + 1) level (a :: current) upcoming seen =
      (firstArrivals target seen (next a)).map (·, level + 1) ++
        outlook next target (depth + 1) level current
          (upcoming ++ ((firstArrivals target seen (next a)).map target).filter (· ≠ start))
          seen' := by
  rw [outlook, outlook, List.flatMap_cons, firstArrivals_append, ← firstArrivals_congr hseen]
  simp only [List.map_append, List.append_assoc]
  refine congrArg _ (congrArg _ ?_)
  generalize (firstArrivals target seen (next a)).map target = near at hseen ⊢
  generalize (firstArrivals target seen' (current.flatMap next)).map target = far
  have hfrontier : (upcoming ++ (near.filter (· ≠ start) ++ far)).filter (· ≠ start) =
      (upcoming ++ (near ++ far)).filter (· ≠ start) := by
    simp [List.filter_append, List.filter_filter]
  have hclosed : ∀ s ∈ next start, target s ∈ near ++ (far ++ seen) := by
    intro s hs
    simp [hstart s hs]
  have hsame : ∀ x, x ∈ far ++ seen' ↔ x ∈ near ++ (far ++ seen) := by
    intro x
    simp only [List.mem_append, hseen]
    exact or_left_comm
  rw [arrivals_congr hsame, ← arrivals_filter_ne hclosed, ← hfrontier, arrivals_filter_ne hclosed]

end

/-! ## Searches -/

/-- A search by a queue runs until there is nothing to leave.  Vertices as far away as `depth` are
not left.  What it comes to is the last list. -/
inductive Drains (next : α → List β) (target : β → α) (start : α) (known : List α) (depth : Nat) :
    Standing α β → List (β × Nat) → Prop
  | done {reached : List (β × Nat)} : Drains next target start known depth ⟨[], reached⟩ reached
  | cut {a : α} {d : Nat} {rest : List (α × Nat)} {reached out : List (β × Nat)} : depth ≤ d →
      Drains next target start known depth ⟨rest, reached⟩ out →
      Drains next target start known depth ⟨(a, d) :: rest, reached⟩ out
  | leave {a : α} {d : Nat} {rest : List (α × Nat)} {reached out : List (β × Nat)} : d < depth →
      Drains next target start known depth
        ((next a).foldl (Standing.take known target start d) ⟨rest, reached⟩) out →
      Drains next target start known depth ⟨(a, d) :: rest, reached⟩ out

namespace Drains

open Standing

variable {start : α} {known : List α} {depth limit level : Nat} {out : List (β × Nat)}
  {s : Standing α β} {current upcoming : List α}

/-- A vertex in front of a queue that is not too far away stands in front of a layer. -/
theorem exists_front {a : α} {d : Nat} {rest : List (α × Nat)} {visited : List α}
    (hnear : d < limit) (hlimit : limit = level + depth)
    (hqueue : (a, d) :: rest = current.map (·, level) ++ upcoming.map (·, level + 1)) :
    ∃ depth' current' upcoming', limit = d + (depth' + 1) ∧
      rest = current'.map (·, d) ++ upcoming'.map (·, d + 1) ∧
      outlook next target depth level current upcoming visited =
        outlook next target (depth' + 1) d (a :: current') upcoming' visited := by
  cases current with
  | nil =>
      cases upcoming with
      | nil => simp at hqueue
      | cons b upcoming =>
          obtain ⟨⟨rfl, rfl⟩, hrest⟩ := by simpa using hqueue
          obtain ⟨k, rfl⟩ : ∃ k, depth = k + 2 := ⟨depth - 2, by omega⟩
          exact ⟨k, upcoming, [], by omega, by simpa using hrest, outlook_nil _ _ _ _⟩
  | cons b current =>
      obtain ⟨⟨rfl, rfl⟩, hrest⟩ := by simpa using hqueue
      obtain ⟨k, rfl⟩ : ∃ k, depth = k + 1 := ⟨depth - 1, by omega⟩
      exact ⟨k, current, upcoming, by omega, hrest, rfl⟩

/-- The queue of a search that has left its start holds the rest of a layer and the beginning of the
next one, and the search comes to what these have in outlook. -/
theorem eq_outlook (h : Drains next target start known limit s out)
    (hlimit : limit = level + depth)
    (hqueue : s.queue = current.map (·, level) ++ upcoming.map (·, level + 1))
    (hstart : ∀ step ∈ next start, target step ∈ seen known target s.reached) :
    out = s.reached ++
      outlook next target depth level current upcoming (seen known target s.reached) := by
  induction h generalizing depth level current upcoming with
  | done =>
      obtain ⟨rfl, rfl⟩ : current = [] ∧ upcoming = [] := by simpa using hqueue
      cases depth with
      | zero => simp [outlook]
      | succ depth => simp [outlook, firstArrivals]
  | @cut a d rest reached out hcut _ ih =>
      -- whatever is in the queue lies too far away
      cases current with
      | nil =>
          cases upcoming with
          | nil => simp at hqueue
          | cons b upcoming =>
              obtain ⟨⟨rfl, rfl⟩, hrest⟩ := by simpa using hqueue
              have hout := @ih _ _ [] _ hlimit hrest hstart
              have hdepth : depth = 0 ∨ depth = 1 := by omega
              rcases hdepth with rfl | rfl
              · exact hout
              · rw [outlook_nil] at hout ⊢
                exact hout
      | cons b current =>
          obtain ⟨⟨rfl, rfl⟩, hrest⟩ := by simpa using hqueue
          obtain rfl : depth = 0 := by omega
          have hout := ih hlimit hrest hstart
          exact hout
  | @leave a d rest reached out hleave _ ih =>
      obtain ⟨depth, current, upcoming, hlimit, hrest, hlook⟩ := exists_front hleave hlimit hqueue
      have hfold := foldl_take known target start d ⟨rest, reached⟩ (next a)
      have hseen := mem_seen_foldl_take known target start d ⟨rest, reached⟩ (next a)
      have hqueue' : ((next a).foldl (take known target start d) ⟨rest, reached⟩).queue =
          current.map (·, d) ++ (upcoming ++ ((firstArrivals target (seen known target reached)
            (next a)).map target).filter (· ≠ start)).map (·, d + 1) := by
        rw [hfold, hrest, List.append_assoc, ← List.map_append]
      have hout := ih hlimit hqueue' fun step hstep =>
        (hseen _).mpr (List.mem_append_right _ (hstart step hstep))
      rw [hout, hlook, outlook_cons hstart hseen, ← List.append_assoc]
      exact congrArg (· ++ _) (congrArg Standing.reached hfold)

/-- A search by a queue comes to the same by the same steps as a search by layers, in the same
order. -/
theorem eq_arrivals (h : Drains next target start known depth ⟨[(start, 0)], []⟩ out) :
    out = arrivals next target depth 0 [start] known := by
  cases h with
  | cut hcut h =>
      obtain rfl : depth = 0 := by omega
      cases h
      rfl
  | leave hleave h =>
      obtain ⟨k, rfl⟩ : ∃ k, depth = k + 1 := ⟨depth - 1, by omega⟩
      have hclosed : ∀ step ∈ next start, target step ∈
          (firstArrivals target known (next start)).map target ++ known := by
        intro step hstep
        by_cases hknown : target step ∈ known
        · exact List.mem_append_right _ hknown
        · obtain ⟨first, hfirst, heq⟩ := exists_firstArrival hstep hknown
          exact List.mem_append_left _ (heq ▸ List.mem_map_of_mem hfirst)
      have hfold := foldl_take known target start 0 ⟨[], []⟩ (next start)
      have hseen := mem_seen_foldl_take known target start 0 ⟨[], []⟩ (next start)
      have hqueue : ((next start).foldl (take known target start 0) ⟨[], []⟩).queue =
          [].map (·, 0) ++ (((firstArrivals target known (next start)).map target).filter
            (· ≠ start)).map (·, 0 + 1) := congrArg Standing.queue hfold
      have hout := h.eq_outlook (Nat.zero_add _).symm hqueue fun step hstep =>
        (hseen _).mpr (hclosed step hstep)
      rw [hout, outlook_nil, outlook_eq_arrivals, arrivals_congr hseen, arrivals_succ,
        List.flatMap_singleton, congrArg Standing.reached hfold]
      exact congrArg _ (arrivals_filter_ne hclosed k 1 _)

end Drains

end CallGraphs
