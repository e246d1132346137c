import CallGraphs.Data.Counting
import Mathlib.Logic.Relation

/-!
# Breadth-first search, layer by layer

What searches by a queue are compared with.  A step is anything that leads to a
vertex, so that a search can report by which step it first came to a vertex as well
as how far away the vertex is (`arrivals`).  A search that has not seen its start
reports it when it lies on a cycle, at the length of the shortest one.

A search with enough depth reports exactly what can be reached (`reports_iff`).
Depth is enough as soon as it is not below the number of vertices that steps lead to:
every layer but the last takes a vertex out of those not seen yet.
-/

namespace CallGraphs

variable {α β : Type}

/-- Some step leads from one vertex to another. -/
def LeadsTo (next : α → List β) (target : β → α) (a b : α) : Prop :=
  ∃ step ∈ next a, target step = b

theorem leadsTo_id {next : α → List α} {a b : α} : LeadsTo next id a b ↔ b ∈ next a := by
  simp [LeadsTo]

variable [DecidableEq α]

/-! ## Searches -/

/-- Of the steps to vertices not seen before, the first one to each. -/
def firstArrivals (target : β → α) : List α → List β → List β
  | _, [] => []
  | seen, step :: rest =>
    if target step ∈ seen then firstArrivals target seen rest
    else step :: firstArrivals target (target step :: seen) rest

/-- The first steps to every vertex within `depth` steps of the frontier, each with its distance,
when the frontier itself is at distance `level`. -/
def arrivals (next : α → List β) (target : β → α) :
    (depth level : Nat) → (frontier seen : List α) → List (β × Nat)
  | 0, _, _, _ => []
  | depth + 1, level, frontier, seen =>
    match firstArrivals target seen (frontier.flatMap next) with
    | [] => []
    | fresh =>
      let reached := fresh.map target
      fresh.map (·, level + 1) ++
        arrivals next target depth (level + 1) reached (reached ++ seen)

/-! ## First arrivals -/

theorem mem_of_mem_firstArrivals {target : β → α} {step : β} :
    ∀ {steps : List β} {seen : List α}, step ∈ firstArrivals target seen steps →
      step ∈ steps ∧ target step ∉ seen
  | [], _, h => absurd h List.not_mem_nil
  | s :: steps, seen, h => by
      rw [firstArrivals] at h
      split at h
      · obtain ⟨hmem, hnew⟩ := mem_of_mem_firstArrivals h
        exact ⟨List.mem_cons_of_mem _ hmem, hnew⟩
      · next hs =>
        rcases List.mem_cons.mp h with rfl | h
        · exact ⟨List.mem_cons_self, hs⟩
        · obtain ⟨hmem, hnew⟩ := mem_of_mem_firstArrivals h
          exact ⟨List.mem_cons_of_mem _ hmem, fun hc => hnew (List.mem_cons_of_mem _ hc)⟩

/-- A vertex that was not seen has a first arrival. -/
theorem exists_firstArrival {target : β → α} {step : β} :
    ∀ {steps : List β} {seen : List α}, step ∈ steps → target step ∉ seen →
      ∃ first ∈ firstArrivals target seen steps, target first = target step
  | [], _, h, _ => absurd h List.not_mem_nil
  | s :: steps, seen, h, hnew => by
      rw [firstArrivals]
      by_cases hsame : target s = target step
      · rw [if_neg (hsame ▸ hnew)]
        exact ⟨s, List.mem_cons_self, hsame⟩
      · have hrest : step ∈ steps :=
          (List.mem_cons.mp h).resolve_left (fun he => hsame (he ▸ rfl))
        split
        · exact exists_firstArrival hrest hnew
        · have hnew' : target step ∉ target s :: seen := by
            simp only [List.mem_cons, not_or]
            exact ⟨fun he => hsame he.symm, hnew⟩
          obtain ⟨first, hmem, heq⟩ := exists_firstArrival hrest hnew'
          exact ⟨first, List.mem_cons_of_mem _ hmem, heq⟩

/-! ## Layers -/

section
variable {next : α → List β} {target : β → α}

@[simp]
theorem arrivals_nil (depth level : Nat) (seen : List α) :
    arrivals next target depth level [] seen = [] := by
  cases depth with
  | zero => rfl
  | succ depth => rfl

/-- The first layer, and the layers after it. -/
theorem arrivals_succ (depth level : Nat) (frontier seen : List α) :
    arrivals next target (depth + 1) level frontier seen =
      (firstArrivals target seen (frontier.flatMap next)).map (·, level + 1) ++
        arrivals next target depth (level + 1)
          ((firstArrivals target seen (frontier.flatMap next)).map target)
          ((firstArrivals target seen (frontier.flatMap next)).map target ++ seen) := by
  rw [arrivals]
  split
  · next h => simp [h]
  · rfl

/-- A vertex that the search reports. -/
def Reports (next : α → List β) (target : β → α) (depth level : Nat) (frontier seen : List α)
    (a : α) : Prop :=
  ∃ p ∈ arrivals next target depth level frontier seen, target p.1 = a

theorem reports_succ {depth level : Nat} {frontier seen : List α} {a : α} :
    Reports next target (depth + 1) level frontier seen a ↔
      a ∈ (firstArrivals target seen (frontier.flatMap next)).map target ∨
        Reports next target depth (level + 1)
          ((firstArrivals target seen (frontier.flatMap next)).map target)
          ((firstArrivals target seen (frontier.flatMap next)).map target ++ seen) a := by
  simp only [Reports, arrivals_succ, List.mem_append, List.mem_map]
  constructor
  · rintro ⟨p, ⟨s, hs, rfl⟩ | hp, rfl⟩
    · exact Or.inl ⟨s, hs, rfl⟩
    · exact Or.inr ⟨p, hp, rfl⟩
  · rintro (⟨s, hs, rfl⟩ | ⟨p, hp, rfl⟩)
    · exact ⟨(s, level + 1), Or.inl ⟨s, hs, rfl⟩, rfl⟩
    · exact ⟨p, Or.inr hp, rfl⟩

/-- Whatever a search reports can be reached from its frontier. -/
theorem reports_sound {depth level : Nat} {frontier seen : List α} {a : α}
    (h : Reports next target depth level frontier seen a) :
    ∃ start ∈ frontier, Relation.TransGen (LeadsTo next target) start a := by
  induction depth generalizing level frontier seen with
  | zero =>
      obtain ⟨p, hp, -⟩ := h
      exact absurd hp List.not_mem_nil
  | succ depth ih =>
      -- a vertex of the first layer is one step away from the frontier
      have first : ∀ b ∈ (firstArrivals target seen (frontier.flatMap next)).map target,
          ∃ start ∈ frontier, LeadsTo next target start b := by
        intro b hb
        obtain ⟨s, hs, rfl⟩ := List.mem_map.mp hb
        obtain ⟨start, hstart, hstep⟩ :=
          List.mem_flatMap.mp (mem_of_mem_firstArrivals hs).1
        exact ⟨start, hstart, s, hstep, rfl⟩
      rcases reports_succ.mp h with h | h
      · obtain ⟨start, hstart, hstep⟩ := first a h
        exact ⟨start, hstart, .single hstep⟩
      · obtain ⟨b, hb, hpath⟩ := ih h
        obtain ⟨start, hstart, hstep⟩ := first b hb
        exact ⟨start, hstart, .head hstep hpath⟩

theorem mem_of_unseen_eq_zero {all seen : List α} (h : unseen all seen = 0) {a : α}
    (ha : a ∈ all) : a ∈ seen := by
  refine Decidable.byContradiction fun hs => ?_
  have := unseen_cons_lt ha hs
  omega

/-- Arrivals at vertices of a list leave less of it unseen. -/
theorem unseen_firstArrivals_lt {all seen : List α} {steps : List β} {s : β}
    (hs : s ∈ firstArrivals target seen steps) (hall : target s ∈ all) :
    unseen all ((firstArrivals target seen steps).map target ++ seen) < unseen all seen := by
  have hnew := (mem_of_mem_firstArrivals hs).2
  refine Nat.lt_of_le_of_lt (unseen_le_of_subset ?_) (unseen_cons_lt hall hnew)
  intro a ha
  rcases List.mem_cons.mp ha with rfl | ha
  · exact List.mem_append_left _ (List.mem_map_of_mem hs)
  · exact List.mem_append_right _ ha

/-- With enough depth, what a search has seen and reports is closed under steps: from the
frontier and from whatever is reported, no step leads to anything else. -/
theorem reports_closed {all : List α} (hall : ∀ a, ∀ s ∈ next a, target s ∈ all)
    {depth level : Nat} {frontier seen : List α} (hdepth : unseen all seen ≤ depth) {a b : α}
    (ha : a ∈ frontier ∨ Reports next target depth level frontier seen a)
    (hab : LeadsTo next target a b) :
    b ∈ seen ∨ Reports next target depth level frontier seen b := by
  induction depth generalizing level frontier seen with
  | zero =>
      obtain ⟨s, hs, rfl⟩ := hab
      exact Or.inl (mem_of_unseen_eq_zero (by omega) (hall a s hs))
  | succ depth ih =>
      rcases ha with ha | ha
      · obtain ⟨s, hs, rfl⟩ := hab
        by_cases hseen : target s ∈ seen
        · exact Or.inl hseen
        · obtain ⟨first, hfirst, heq⟩ :=
            exists_firstArrival (List.mem_flatMap.mpr ⟨a, ha, hs⟩) hseen
          exact Or.inr (reports_succ.mpr (Or.inl (List.mem_map.mpr ⟨first, hfirst, heq⟩)))
      · have hless : unseen all ((firstArrivals target seen (frontier.flatMap next)).map target
            ++ seen) ≤ depth := by
          -- the first layer is not empty, or nothing would be reported
          obtain ⟨s, hs⟩ : ∃ s, s ∈ firstArrivals target seen (frontier.flatMap next) := by
            rcases hf : firstArrivals target seen (frontier.flatMap next) with _ | ⟨s, rest⟩
            · rw [reports_succ, hf] at ha
              simp [Reports] at ha
            · exact ⟨s, List.mem_cons_self⟩
          obtain ⟨c, -, hc⟩ := List.mem_flatMap.mp (mem_of_mem_firstArrivals hs).1
          have := unseen_firstArrivals_lt hs (hall c s hc)
          omega
        rcases ih hless (reports_succ.mp ha) with h | h
        · rcases List.mem_append.mp h with h | h
          · exact Or.inr (reports_succ.mpr (Or.inl h))
          · exact Or.inl h
        · exact Or.inr (reports_succ.mpr (Or.inr h))

/-- No vertex is reported that was seen before. -/
theorem notMem_of_reports {depth level : Nat} {frontier seen : List α} {a : α}
    (h : Reports next target depth level frontier seen a) : a ∉ seen := by
  induction depth generalizing level frontier seen with
  | zero =>
      obtain ⟨p, hp, -⟩ := h
      exact absurd hp List.not_mem_nil
  | succ depth ih =>
      rcases reports_succ.mp h with h | h
      · obtain ⟨s, hs, rfl⟩ := List.mem_map.mp h
        exact (mem_of_mem_firstArrivals hs).2
      · exact fun ha => ih h (List.mem_append_right _ ha)

end

theorem unseen_le_length (all seen : List α) : unseen all seen ≤ all.length :=
  List.countP_le_length

/-- A search of enough depth reports what its start leads to in one step or more. -/
theorem reports_iff {next : α → List β} {target : β → α} {all : List α}
    (hall : ∀ a, ∀ s ∈ next a, target s ∈ all) {start a : α} {depth : Nat}
    (hdepth : all.length ≤ depth) :
    Reports next target depth 0 [start] [] a ↔
      Relation.TransGen (LeadsTo next target) start a := by
  constructor
  · intro h
    obtain ⟨s, hs, hpath⟩ := reports_sound h
    obtain rfl := List.mem_singleton.mp hs
    exact hpath
  · have closed : ∀ x y, (x ∈ [start] ∨ Reports next target depth 0 [start] [] x) →
        LeadsTo next target x y → Reports next target depth 0 [start] [] y := by
      intro x y hx hy
      have hle : unseen all [] ≤ depth := Nat.le_trans (unseen_le_length all []) hdepth
      exact (reports_closed hall hle hx hy).resolve_left List.not_mem_nil
    intro h
    induction h with
    | single h => exact closed _ _ (Or.inl List.mem_cons_self) h
    | tail _ h ih => exact closed _ _ (Or.inr ih) h

end CallGraphs
