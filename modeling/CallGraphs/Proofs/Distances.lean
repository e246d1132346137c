import CallGraphs.Proofs.Search
import Mathlib.Data.List.Nodup

/-!
# Distances that a breadth-first search reports

A walk of `n` steps leads from one vertex to another (`Walk`), and the distance
of a vertex is the length of a shortest walk to it that has a step at all
(`Shortest`): so the distance of the start to itself is the length of its shortest
cycle.  A search from a start goes layer by layer, and the layer at level `n` is
what lies at distance `n` (`Layer`, `Layer.succ`).  So the search comes to every
vertex once (`nodup_arrivals`), it comes to a vertex at its distance
(`exists_arrival_iff`), and the step by which it comes there starts one layer
before (`exists_origin_of_arrival`).
-/

namespace CallGraphs

variable {α β : Type}

/-! ## Walks -/

/-- A walk of a number of steps leads from one vertex to another. -/
inductive Walk (r : α → α → Prop) : Nat → α → α → Prop
  | nil (a : α) : Walk r 0 a a
  | step {n : Nat} {a b c : α} : Walk r n a b → r b c → Walk r (n + 1) a c

/-- The shortest walk between two vertices that has a step has this many of them. -/
structure Shortest (r : α → α → Prop) (n : Nat) (a b : α) : Prop where
  pos : 0 < n
  walk : Walk r n a b
  least : ∀ m, 0 < m → Walk r m a b → n ≤ m

variable {r : α → α → Prop} {n m : Nat} {a b start : α}

theorem Shortest.unique (h : Shortest r n a b) (h' : Shortest r m a b) : n = m :=
  Nat.le_antisymm (h.least m h'.pos h'.walk) (h'.least n h.pos h.walk)

theorem Walk.cons {c : α} (hstep : r a b) (h : Walk r n b c) : Walk r (n + 1) a c := by
  induction h with
  | nil b => exact .step (.nil a) hstep
  | step _ hlast ih => exact .step (ih hstep) hlast

/-- A walk backwards. -/
theorem Walk.reverse (h : Walk r n a b) : Walk (flip r) n b a := by
  induction h with
  | nil a => exact .nil a
  | step _ hstep ih => exact ih.cons hstep

/-- Backwards it is as far as forwards. -/
theorem Shortest.reverse (h : Shortest r n a b) : Shortest (flip r) n b a where
  pos := h.pos
  walk := h.walk.reverse
  least m hm hwalk := h.least m hm hwalk.reverse

/-- What can be reached is what walks with a step lead to. -/
theorem transGen_iff_exists_walk : Relation.TransGen r a b ↔ ∃ n, 0 < n ∧ Walk r n a b := by
  constructor
  · intro h
    induction h with
    | single hstep => exact ⟨1, Nat.one_pos, .step (.nil a) hstep⟩
    | tail _ hstep ih =>
        obtain ⟨n, -, hwalk⟩ := ih
        exact ⟨n + 1, Nat.succ_pos n, hwalk.step hstep⟩
  · rintro ⟨n, hpos, hwalk⟩
    cases hwalk with
    | nil => exact absurd hpos (Nat.lt_irrefl 0)
    | step hbefore hstep =>
        refine .tail' ?_ hstep
        clear hpos hstep
        induction hbefore with
        | nil => exact .refl
        | step _ hstep ih => exact .tail ih hstep

/-- A walk with a step is not shorter than some shortest one. -/
theorem Walk.exists_shortest (h : Walk r n a b) (hpos : 0 < n) : ∃ m ≤ n, Shortest r m a b := by
  induction n using Nat.strongRecOn with
  | ind n ih =>
      by_cases hshorter : ∃ m < n, 0 < m ∧ Walk r m a b
      · obtain ⟨m, hlt, hm, hwalk⟩ := hshorter
        obtain ⟨k, hle, hk⟩ := ih m hlt hwalk hm
        exact ⟨k, by omega, hk⟩
      · refine ⟨n, Nat.le_refl n, hpos, h, ?_⟩
        intro m hm hwalk
        refine Nat.le_of_not_lt fun hlt => ?_
        exact hshorter ⟨m, hlt, hm, hwalk⟩

/-- The vertices at a level of a search: the start at level zero, those at distance `n` at any
other level `n`. -/
def OnLevel (r : α → α → Prop) (start : α) (n : Nat) (a : α) : Prop :=
  (n = 0 ∧ a = start) ∨ Shortest r n start a

theorem OnLevel.walk (h : OnLevel r start n a) : Walk r n start a := by
  rcases h with ⟨rfl, rfl⟩ | h
  · exact .nil _
  · exact h.walk

/-- The vertex before the last step of a shortest walk is one level before. -/
theorem Shortest.exists_before (h : Shortest r (n + 1) start b) :
    ∃ a, OnLevel r start n a ∧ r a b := by
  cases h.walk with
  | @step _ _ a _ hwalk hstep =>
      refine ⟨a, ?_, hstep⟩
      cases n with
      | zero =>
          cases hwalk
          exact .inl ⟨rfl, rfl⟩
      | succ n =>
          -- a shorter walk to `a` would give a shorter walk to `b`
          obtain ⟨m, hle, hm⟩ := hwalk.exists_shortest (Nat.succ_pos n)
          have hleast := h.least (m + 1) (Nat.succ_pos m) (hm.walk.step hstep)
          obtain rfl : m = n + 1 := by omega
          exact .inr hm

/-- The next level: one step on, and not on any level before. -/
theorem shortest_succ_iff : Shortest r (n + 1) start b ↔
    (∃ a, OnLevel r start n a ∧ r a b) ∧ ∀ m ≤ n, ¬ Shortest r m start b := by
  constructor
  · intro h
    refine ⟨h.exists_before, ?_⟩
    intro m hm hshort
    have := h.unique hshort
    omega
  · rintro ⟨⟨a, ha, hstep⟩, hnew⟩
    refine ⟨Nat.succ_pos n, ha.walk.step hstep, ?_⟩
    intro m hm hwalk
    obtain ⟨k, hle, hk⟩ := hwalk.exists_shortest hm
    have hk' : ¬ k ≤ n := fun h => hnew k h hk
    omega

/-! ## Layers -/

section
variable [DecidableEq α] {next : α → List β} {target : β → α}

theorem mem_map_firstArrivals {seen : List α} {steps : List β} :
    a ∈ (firstArrivals target seen steps).map target ↔
      (∃ s ∈ steps, target s = a) ∧ a ∉ seen := by
  constructor
  · intro h
    obtain ⟨s, hs, rfl⟩ := List.mem_map.mp h
    obtain ⟨hmem, hnew⟩ := mem_of_mem_firstArrivals hs
    exact ⟨⟨s, hmem, rfl⟩, hnew⟩
  · rintro ⟨⟨s, hs, rfl⟩, hnew⟩
    obtain ⟨first, hfirst, heq⟩ := exists_firstArrival hs hnew
    exact List.mem_map.mpr ⟨first, hfirst, heq⟩

theorem nodup_firstArrivals (seen : List α) (steps : List β) :
    ((firstArrivals target seen steps).map target).Nodup := by
  induction steps generalizing seen with
  | nil => exact List.nodup_nil
  | cons s steps ih =>
      rw [firstArrivals]
      split
      · exact ih seen
      · refine List.nodup_cons.mpr ⟨?_, ih _⟩
        intro hmem
        exact (mem_map_firstArrivals.mp hmem).2 List.mem_cons_self

/-- A search from `start` stands at a level: its frontier is the level, and it has seen what is at
a distance up to there. -/
structure Layer (next : α → List β) (target : β → α) (start : α) (level : Nat)
    (frontier seen : List α) : Prop where
  frontier : ∀ a, a ∈ frontier ↔ OnLevel (LeadsTo next target) start level a
  seen : ∀ a, a ∈ seen ↔ ∃ n ≤ level, Shortest (LeadsTo next target) n start a

theorem layer_zero : Layer next target start 0 [start] [] where
  frontier a := by
    constructor
    · intro h
      exact .inl ⟨rfl, List.mem_singleton.mp h⟩
    · rintro (⟨-, rfl⟩ | h)
      · exact List.mem_singleton_self _
      · exact absurd h.pos (Nat.lt_irrefl 0)
  seen a := by
    constructor
    · intro h
      exact absurd h List.not_mem_nil
    · rintro ⟨n, hn, h⟩
      have := h.pos
      omega

variable {level depth d : Nat} {frontier seen : List α}

theorem Layer.mem_fresh_iff (h : Layer next target start level frontier seen) :
    a ∈ (firstArrivals target seen (frontier.flatMap next)).map target ↔
      Shortest (LeadsTo next target) (level + 1) start a := by
  rw [mem_map_firstArrivals, shortest_succ_iff]
  refine and_congr ?_ ?_
  · constructor
    · rintro ⟨s, hs, rfl⟩
      obtain ⟨b, hb, hstep⟩ := List.mem_flatMap.mp hs
      exact ⟨b, (h.frontier b).mp hb, s, hstep, rfl⟩
    · rintro ⟨b, hb, s, hstep, rfl⟩
      exact ⟨s, List.mem_flatMap.mpr ⟨b, (h.frontier b).mpr hb, hstep⟩, rfl⟩
  · rw [h.seen]
    simp only [not_exists, not_and]

/-- One layer further. -/
theorem Layer.succ (h : Layer next target start level frontier seen) :
    Layer next target start (level + 1)
      ((firstArrivals target seen (frontier.flatMap next)).map target)
      ((firstArrivals target seen (frontier.flatMap next)).map target ++ seen) where
  frontier a := by
    rw [h.mem_fresh_iff]
    constructor
    · exact .inr
    · rintro (⟨hzero, -⟩ | hshort)
      · exact absurd hzero (Nat.succ_ne_zero level)
      · exact hshort
  seen a := by
    rw [List.mem_append, h.mem_fresh_iff, h.seen]
    constructor
    · rintro (hshort | ⟨n, hn, hshort⟩)
      · exact ⟨level + 1, Nat.le_refl _, hshort⟩
      · exact ⟨n, by omega, hshort⟩
    · rintro ⟨n, hn, hshort⟩
      rcases Nat.lt_or_ge level n with hlt | hle
      · obtain rfl : n = level + 1 := by omega
        exact .inl hshort
      · exact .inr ⟨n, hle, hshort⟩

/-- From a layer on, a search comes to what lies further away, at its distance. -/
theorem Layer.exists_arrival_iff (h : Layer next target start level frontier seen) :
    (∃ s, (s, d) ∈ arrivals next target depth level frontier seen ∧ target s = a) ↔
      level < d ∧ d ≤ level + depth ∧ Shortest (LeadsTo next target) d start a := by
  induction depth generalizing level frontier seen with
  | zero =>
      constructor
      · rintro ⟨s, hs, -⟩
        exact absurd hs List.not_mem_nil
      · rintro ⟨hlt, hle, -⟩
        omega
  | succ depth ih =>
      rw [arrivals_succ]
      simp only [List.mem_append, or_and_right, exists_or, ih h.succ]
      constructor
      · rintro (⟨s, hs, rfl⟩ | ⟨hlt, hle, hshort⟩)
        · obtain ⟨t, ht, heq⟩ := List.mem_map.mp hs
          obtain ⟨rfl, rfl⟩ := Prod.mk.inj heq
          have hfresh := h.mem_fresh_iff.mp (List.mem_map_of_mem ht)
          exact ⟨Nat.lt_succ_self level, by omega, hfresh⟩
        · exact ⟨by omega, by omega, hshort⟩
      · rintro ⟨hlt, hle, hshort⟩
        by_cases hnear : d = level + 1
        · subst hnear
          obtain ⟨t, ht, rfl⟩ := List.mem_map.mp (h.mem_fresh_iff.mpr hshort)
          exact .inl ⟨t, List.mem_map_of_mem ht, rfl⟩
        · exact .inr ⟨by omega, by omega, hshort⟩

/-! ## Arrivals -/

/-- A search comes to a vertex at its distance, if that is within the depth of the search. -/
theorem exists_arrival_iff :
    (∃ s, (s, d) ∈ arrivals next target depth 0 [start] [] ∧ target s = a) ↔
      d ≤ depth ∧ Shortest (LeadsTo next target) d start a := by
  rw [layer_zero.exists_arrival_iff, Nat.zero_add]
  constructor
  · exact And.right
  · exact fun h => ⟨h.2.pos, h⟩

/-- A search comes to every vertex once. -/
theorem nodup_arrivals (depth level : Nat) (frontier seen : List α) :
    ((arrivals next target depth level frontier seen).map fun p => target p.1).Nodup := by
  induction depth generalizing level frontier seen with
  | zero => exact List.nodup_nil
  | succ depth ih =>
      rw [arrivals_succ, List.map_append, List.map_map]
      refine List.Nodup.append (nodup_firstArrivals _ _) (ih _ _ _) ?_
      -- later layers avoid what was seen, the layer at hand included
      intro a hfresh hlater
      obtain ⟨p, hp, rfl⟩ := List.mem_map.mp hlater
      exact notMem_of_reports ⟨p, hp, rfl⟩ (List.mem_append_left _ hfresh)

/-- The step by which a search comes to a vertex starts at the frontier, or at a vertex that the
search came to one layer before. -/
theorem exists_origin_of_arrival {s : β}
    (h : (s, d) ∈ arrivals next target depth level frontier seen) :
    ∃ b, s ∈ next b ∧ ((d = level + 1 ∧ b ∈ frontier) ∨
      ∃ p ∈ arrivals next target depth level frontier seen, target p.1 = b ∧ p.2 + 1 = d) := by
  induction depth generalizing level frontier seen with
  | zero => exact absurd h List.not_mem_nil
  | succ depth ih =>
      rw [arrivals_succ] at h ⊢
      rcases List.mem_append.mp h with h | h
      · obtain ⟨t, ht, heq⟩ := List.mem_map.mp h
        obtain ⟨rfl, rfl⟩ := Prod.mk.inj heq
        obtain ⟨b, hb, hstep⟩ := List.mem_flatMap.mp (mem_of_mem_firstArrivals ht).1
        exact ⟨b, hstep, .inl ⟨rfl, hb⟩⟩
      · obtain ⟨b, hstep, ⟨rfl, hb⟩ | ⟨p, hp, hb, hd⟩⟩ := ih h
        · obtain ⟨t, ht, rfl⟩ := List.mem_map.mp hb
          exact ⟨target t, hstep, .inr ⟨(t, level + 1),
            List.mem_append_left _ (List.mem_map_of_mem ht), rfl, rfl⟩⟩
        · exact ⟨b, hstep, .inr ⟨p, List.mem_append_right _ hp, hb, hd⟩⟩

end

/-! ## Walks under a change of vertices -/

section
variable {γ : Type} {r' : γ → γ → Prop} {name : α → γ} {P : α → Prop}

/-- The vertices of `r` that `P` holds of are those of `r'` under other names, each under one. -/
structure Renames (r : α → α → Prop) (r' : γ → γ → Prop) (name : α → γ) (P : α → Prop) : Prop where
  into : ∀ {a b}, P a → r a b → P b ∧ r' (name a) (name b)
  back : ∀ {a c}, P a → r' (name a) c → ∃ b, r a b ∧ name b = c
  inj : ∀ {a b}, P a → P b → name a = name b → a = b

namespace Renames

theorem walk (h : Renames r r' name P) (ha : P a) (hwalk : Walk r n a b) :
    P b ∧ Walk r' n (name a) (name b) := by
  induction hwalk with
  | nil a => exact ⟨ha, .nil _⟩
  | step _ hstep ih =>
      obtain ⟨hb, hwalk'⟩ := ih ha
      obtain ⟨hc, hstep'⟩ := h.into hb hstep
      exact ⟨hc, hwalk'.step hstep'⟩

theorem exists_walk (h : Renames r r' name P) (ha : P a) {c : γ} (hwalk : Walk r' n (name a) c) :
    ∃ b, Walk r n a b ∧ name b = c := by
  generalize hstart : name a = x at hwalk
  induction hwalk with
  | nil x => exact ⟨a, .nil a, hstart⟩
  | step _ hstep ih =>
      obtain ⟨b, hb, rfl⟩ := ih hstart
      obtain ⟨d, hd, rfl⟩ := h.back (h.walk ha hb).1 hstep
      exact ⟨d, hb.step hd, rfl⟩

/-- Distances do not depend on the names of vertices. -/
theorem shortest_iff (h : Renames r r' name P) (ha : P a) {c : γ} :
    Shortest r' n (name a) c ↔ ∃ b, Shortest r n a b ∧ name b = c := by
  constructor
  · intro hshort
    obtain ⟨b, hwalk, rfl⟩ := h.exists_walk ha hshort.walk
    exact ⟨b, ⟨hshort.pos, hwalk, fun m hm hm' => hshort.least m hm (h.walk ha hm').2⟩, rfl⟩
  · rintro ⟨b, hshort, rfl⟩
    obtain ⟨hb, hwalk⟩ := h.walk ha hshort.walk
    refine ⟨hshort.pos, hwalk, ?_⟩
    intro m hm hm'
    obtain ⟨b', hwalk', heq⟩ := h.exists_walk ha hm'
    obtain rfl := h.inj (h.walk ha hwalk').1 hb heq
    exact hshort.least m hm hwalk'

end Renames

end

end CallGraphs
