import CallGraphs.Proofs.Flow.Runs

/-!
# Programs that are run again

A program need not be finished when it is run: constraints may be added after a
run, and it may be run again, under other limits and under tokens that call the
run off at any moment (`Program.History`).  A run uses up assignments and calls
of known functions, whether it comes to its end or not, while the copies that it
added and the targets that it noted stay; which slots changed last is forgotten.

Nothing of this does harm.  Whatever was asked for so far, a program asks for
nothing and holds nothing but what follows from that (`Accounted`): a step adds
what it says, and a run puts in place of what it uses up only what it implies.
So slots never hold more than the least solution, although they may hold less.
A run that comes to its end has carried out all copies, and so the next one finds
nothing to do.
-/

namespace CallGraphs

namespace Flow

open Binding

/-- What becomes of a program by steps in which it comes about and by runs over the same functions,
in whatever order, and the constraints that are asked for on the way.  A run may be under any limit,
may be called off at any moment, and need not end well. -/
inductive Program.History (names : List FunctionKey) (p : Program) :
    Program → List (Constraint NodeId) → Prop where
  | start : History names p p []
  | adds {q r : Program} {cs new : List (Constraint NodeId)} : History names p q cs →
      Program.Adds q r new → History names p r (cs ++ new)
  | run {q : Program} {cs : List (Constraint NodeId)} (limit : Option Nat)
      (calledOff : Nat → Bool) : History names p q cs →
      History names p (q.solveUntil names limit calledOff).1 cs

section Histories

variable {names : List FunctionKey} {p q r : Program} {cs new more : List (Constraint NodeId)}
  {F : Family NodeId} {limit : Option Nat} {calledOff : Nat → Bool} {result : FixpointStats}

/-! ## Nothing is lost -/

/-- A program keeps its slots, and these keep what they hold. -/
structure Keeps (p q : Program) : Prop where
  keys : p.keys <+: q.keys
  holds : ∀ id x, p.Holds id x → q.Holds id x

theorem Keeps.trans (h : Keeps p q) (h' : Keeps q r) : Keeps p r :=
  ⟨h.keys.trans h'.keys, fun id x hx => h'.holds id x (h.holds id x hx)⟩

theorem keeps_adds (hv : p.Valid) (h : Program.Adds p q new) : Keeps p q :=
  ⟨(h.extends hv).keys, fun _ _ => (h.extends hv).holds.mpr⟩

theorem keeps_solveUntil (hv : p.Valid) : Keeps p (p.solveUntil names limit calledOff).1 :=
  ⟨(Spent.solveUntil_univ hv).follows.keys, fun _ _ => holds_solveUntil⟩

theorem Program.History.valid (h : p.History names q cs) (hv : p.Valid) : q.Valid := by
  induction h with
  | start => exact hv
  | adds _ hadds ih => exact ih.adds hadds
  | run limit calledOff _ ih => exact (Spent.solveUntil_univ ih).valid ih

theorem Program.History.keeps (h : p.History names q cs) (hv : p.Valid) : Keeps p q := by
  induction h with
  | start => exact ⟨List.prefix_refl _, fun _ _ => id⟩
  | adds h hadds ih => exact ih.trans (keeps_adds (h.valid hv) hadds)
  | run limit calledOff h ih => exact ih.trans (keeps_solveUntil (h.valid hv))

/-! ## Nothing comes from nowhere -/

/-- A program asks for nothing and holds nothing but what follows from constraints, and of these it
has all copies, apart from those of a slot to itself. -/
structure Accounted (names : List FunctionKey) (cs : List (Constraint NodeId)) (p : Program) :
    Prop where
  valid : p.Valid
  constraints : ∀ c ∈ p.constraints, c ∈ cs ∨ ∃ a b, c = .flow (.slot a) b ∧
    ∀ F, Solves {c | c ∈ cs} (nameOf names) F → F a ⊆ F b
  contents : ∀ F, Solves {c | c ∈ cs} (nameOf names) F → p.contents ≤ F
  copies : ∀ a b, .flow (.slot a) b ∈ cs → a = b ∨
    ∃ s t, (s, t) ∈ p.copies ∧ p.keyAt s = a ∧ p.keyAt t = b

/-- Only copies let a slot flow; an assignment that waits is of an item. -/
theorem Program.Valid.exists_copy (hv : p.Valid) {a b : Slot}
    (h : .flow (.slot a) b ∈ p.constraints) :
    ∃ s t, (s, t) ∈ p.copies ∧ p.keyAt s = a ∧ p.keyAt t = b := by
  rcases Program.mem_constraints_flow.mp h with ⟨s, t, hst, heq⟩ | ⟨u, hu, heq⟩
  · obtain ⟨hs, rfl⟩ := Constraint.flow.inj heq
    exact ⟨s, t, hst, Origin.slot.inj hs, rfl⟩
  · have hseed := hv.seeds u hu
    cases u with
    | add t f => exact absurd heq (by simp [Program.flowOf])
    | copy s t => exact hseed.elim
    | block t => exact absurd heq (by simp [Program.flowOf])

namespace Accounted

theorem empty : Accounted names [] .empty where
  valid := .empty
  constraints := by simp [Program.constraints, Program.readAsking, Program.empty]
  contents := by
    rintro F - key x ⟨id, -, hx⟩
    exact absurd hx.lt_length (by simp [Program.empty])
  copies := by simp

/-- What solves the constraints solves what the program asks for. -/
theorem solves (h : Accounted names cs p) (hF : Solves {c | c ∈ cs} (nameOf names) F) :
    Solves {c | c ∈ p.constraints} (nameOf names) F := by
  refine hF.of_implied fun c hc => (h.constraints c hc).imp_right ?_
  rintro ⟨a, b, rfl, hsub⟩
  exact ⟨a, b, rfl, hsub F hF⟩

theorem adds (h : Accounted names cs p) (hadds : Program.Adds p q new) :
    Accounted names (cs ++ new) q := by
  have hextends := hadds.extends h.valid
  have hvalid := h.valid.adds hadds
  have weaken : ∀ F, Solves {c | c ∈ cs ++ new} (nameOf names) F →
      Solves {c | c ∈ cs} (nameOf names) F :=
    fun F hF => hF.anti fun c hc => Or.inl (List.mem_append_left new hc)
  refine ⟨hvalid, ?_, ?_, ?_⟩
  · intro c hc
    rcases hextends.sound c hc with hold | hnew
    · refine (h.constraints c hold).imp (fun hcs => List.mem_append_left _ hcs) ?_
      rintro ⟨a, b, rfl, hsub⟩
      exact ⟨a, b, rfl, fun F hF => hsub F (weaken F hF)⟩
    · exact Or.inl (List.mem_append_right _ hnew)
  · intro F hF
    rw [Program.contents_congr hextends.keys h.valid.nodup hextends.holds]
    exact h.contents F (weaken F hF)
  · intro a b hab
    have hasked : .flow (.slot a) b ∈ p.constraints ∨ .flow (.slot a) b ∈ new ∨ a = b := by
      rcases List.mem_append.mp hab with hold | hnew
      · rcases h.copies a b hold with rfl | ⟨s, t, hst, rfl, rfl⟩
        · exact Or.inr (Or.inr rfl)
        · exact Or.inl (Program.mem_constraints_flow.mpr (Or.inl ⟨s, t, hst, rfl⟩))
      · exact Or.inr (Or.inl hnew)
    rw [← or_assoc] at hasked
    rcases hasked with hasked | rfl
    · rcases hextends.complete _ hasked with hmem | ⟨key, heq⟩
      · exact Or.inr (hvalid.exists_copy hmem)
      · obtain ⟨ha, rfl⟩ := Constraint.flow.inj heq
        exact Or.inl (Origin.slot.inj ha)
    · exact Or.inl rfl

/-- What slots hold, by place, is held under every solution. -/
theorem items (h : Accounted names cs p) (hF : Solves {c | c ∈ cs} (nameOf names) F) :
    ∀ id key x, p.keys[id]? = some key → p.Holds id x → x ∈ F key :=
  fun _ key _ hkey hx => h.contents F hF key ((Program.mem_contents h.valid.nodup hkey).mpr hx)

/-- After a run a program asks for copies and for what it asked for before. -/
theorem constraints_of_spent (hv : p.Valid) (h : Spent F p { program := q }) :
    ∀ c ∈ q.constraints, c ∈ p.constraints ∨
      ∃ s t, (s, t) ∈ q.copies ∧ c = q.flowOf (.copy s t) := by
  have hseeds : q.seeds = [] := h.seeds
  have hknowns : q.staticCalls = [] := h.staticCalls
  have hpre : p.keys <+: q.keys := h.follows.keys
  intro c hc
  cases c with
  | flow o key =>
      rcases Program.mem_constraints_flow.mp hc with ⟨s, t, hst, heq⟩ | ⟨u, hu, -⟩
      · exact Or.inr ⟨s, t, hst, heq.symm⟩
      · rw [hseeds] at hu
        exact absurd hu List.not_mem_nil
  | call f args explicit =>
      obtain ⟨call, hcall, -⟩ := Program.mem_constraints_call.mp hc
      rw [hknowns] at hcall
      exact absurd hcall List.not_mem_nil
  | callThrough key args explicit expand =>
      obtain ⟨call, hcall, rfl, rfl, hrest⟩ := Program.mem_constraints_callThrough.mp hc
      rw [h.follows.calls] at hcall
      obtain ⟨hthrough, hargs⟩ := hv.calls call hcall
      rw [Program.keyAt_of_isPrefix hpre hthrough, Program.origins_of_isPrefix hpre hargs]
      exact Or.inl (Program.mem_constraints_callThrough.mpr ⟨call, hcall, rfl, rfl, hrest⟩)
  | default f index o =>
      obtain ⟨d, hd, hf, hindex, rfl⟩ := Program.mem_constraints_default.mp hc
      rw [h.follows.defaults] at hd
      rw [Program.origin_of_isPrefix hpre (hv.defaults d hd)]
      exact Or.inl (Program.mem_constraints_default.mpr ⟨d, hd, hf, hindex, rfl⟩)
  | overrider f g =>
      rw [Program.mem_constraints_overrider, Program.expansionOf, h.follows.expansions] at hc
      exact Or.inl (Program.mem_constraints_overrider.mpr hc)

theorem solveUntil (h : Accounted names cs p) :
    Accounted names cs (p.solveUntil names limit calledOff).1 := by
  have hspent : ∀ F, Solves {c | c ∈ cs} (nameOf names) F →
      Spent F p { program := (p.solveUntil names limit calledOff).1 } :=
    fun F hF => .solveUntil (h.solves hF) h.valid (h.items hF)
  have huniv := hspent _ solves_univ
  generalize (p.solveUntil names limit calledOff).1 = q at hspent huniv
  refine ⟨huniv.valid h.valid, ?_, ?_, ?_⟩
  · intro c hc
    rcases constraints_of_spent h.valid huniv c hc with hold | ⟨s, t, hst, rfl⟩
    · exact h.constraints c hold
    · -- a copy is there because every solution carries it out
      refine Or.inr ⟨_, _, rfl, fun F hF => ?_⟩
      obtain ⟨a, b, ha, hb, hsub⟩ := (hspent F hF).sound.copies s t hst
      rwa [Program.keyAt_of_getElem? ha, Program.keyAt_of_getElem? hb]
  · rintro F hF key x ⟨id, hid, hx⟩
    exact (hspent F hF).sound.items id key x (Program.getElem?_of_slotId? hid) hx
  · intro a b hab
    refine (h.copies a b hab).imp_right ?_
    rintro ⟨s, t, hst, rfl, rfl⟩
    obtain ⟨hs, ht⟩ := h.valid.copies s t hst
    exact ⟨s, t, huniv.follows.copies hst, Program.keyAt_of_isPrefix huniv.follows.keys hs,
      Program.keyAt_of_isPrefix huniv.follows.keys ht⟩

end Accounted

theorem Program.History.accounted (h : Program.empty.History names p cs) :
    Accounted names cs p := by
  induction h with
  | start => exact .empty
  | adds _ hadds ih => exact ih.adds hadds
  | run limit calledOff _ ih => exact ih.solveUntil

/-! ## After a run that came to its end -/

/-- The slots of a copy that was asked for hold so, once it has been carried out. -/
theorem Accounted.contents_subset (h : Accounted names cs p)
    (hclosed : ∀ s t, (s, t) ∈ p.copies → ∀ x, p.Holds s x → p.Holds t x) {a b : Slot}
    (hab : .flow (.slot a) b ∈ cs) : p.contents a ⊆ p.contents b := by
  rcases h.copies a b hab with rfl | ⟨s, t, hst, rfl, rfl⟩
  · exact subset_rfl
  · obtain ⟨hs, ht⟩ := h.valid.copies s t hst
    intro x hx
    have hheld := (Program.mem_contents h.valid.nodup (Program.getElem?_keyAt hs)).mp hx
    exact (Program.mem_contents h.valid.nodup (Program.getElem?_keyAt ht)).mpr
      (hclosed s t hst x hheld)

end Histories

/-! ## Main statement -/

/-- Whatever was done to a program over a graph, in steps in which it comes about and in runs that
ended well or not, slots hold no more than in the least solution of all that was asked for so far;
whatever is done to it later, no slot loses anything.  After a run that comes to its end all copies
have been carried out, those that were asked for and those that pass arguments; its totals never
went down; and a run that follows at once makes no round after its first changes and leaves the
program as it is. -/
theorem history_sound_and_closed (g : Graph) {p : Program} {cs : List (Constraint NodeId)}
    (h : Program.empty.History (g.nodes.map (·.key)) p cs) :
    (∃ F, IsLeast {F | Solves {c | c ∈ cs} g.keyOf F} F ∧ p.contents ≤ F) ∧
    (∀ q more, p.History (g.nodes.map (·.key)) q more → p.contents ≤ q.contents) ∧
    ∀ limit calledOff q result,
      p.solveUntil (g.nodes.map (·.key)) limit calledOff = (q, .ok result) →
      (∀ s t, (s, t) ∈ q.copies → ∀ x, q.Holds s x → q.Holds t x) ∧
      (∀ a b, .flow (.slot a) b ∈ cs → q.contents a ⊆ q.contents b) ∧
      (result.totals.Pairwise (· ≤ ·) ∧ result.isMonotone = true) ∧
      ∀ limit' calledOff', ∃ again,
        q.solveUntil (g.nodes.map (·.key)) limit' calledOff' = (q, .ok again) ∧
        again.rounds = 0 := by
  have haccounted := h.accounted
  refine ⟨?_, ?_, ?_⟩
  · obtain ⟨F, hF⟩ := exists_isLeast_solves {c | c ∈ cs} g.keyOf
    exact ⟨F, hF, haccounted.contents F (by rw [nameOf_nodes]; exact hF.1)⟩
  · intro q more hmore
    obtain ⟨hkeys, hholds⟩ := hmore.keeps haccounted.valid
    exact Program.contents_le hkeys hholds
  · intro limit calledOff q result hrun
    have hok : (p.solveUntil (g.nodes.map (·.key)) limit calledOff).2 = .ok result := by rw [hrun]
    have hq : (p.solveUntil (g.nodes.map (·.key)) limit calledOff).1 = q := by rw [hrun]
    have hclosed : ∀ s t, (s, t) ∈ q.copies → ∀ x, q.Holds s x → q.Holds t x := by
      intro s t hst x hx
      subst hq
      exact closed_of_solveUntil haccounted.valid hok hst hx
    have hspent : Spent (fun _ => Set.univ) p { program := q } :=
      hq ▸ Spent.solveUntil_univ haccounted.valid
    have htotals := totals_solveUntil haccounted.valid hok
    have hafter : Accounted (g.nodes.map (·.key)) cs q := hq ▸ haccounted.solveUntil
    refine ⟨hclosed, fun a b hab => hafter.contents_subset hclosed hab,
      ⟨htotals, result.isMonotone_of_pairwise htotals⟩, ?_⟩
    intro limit' calledOff'
    exact ⟨_, solveUntil_of_closed hspent.seeds hspent.staticCalls hclosed, rfl⟩

/-- A program whose run is called off after one round, and asks for a copy after that. -/
def callThroughSlotResumed : Program :=
  ((callThroughSlot.solveUntil (mainAndRun.nodes.map (·.key)) none (· = 1)).1.addCopy 1 0).1

theorem callThroughSlotResumed_sound_and_closed : ∃ cs q result,
    Program.empty.History (mainAndRun.nodes.map (·.key)) callThroughSlotResumed cs ∧
    (callThroughSlot.solveUntil (mainAndRun.nodes.map (·.key)) none (· = 1)).2 =
      .error .cancelled ∧
    callThroughSlotResumed.solveUntil (mainAndRun.nodes.map (·.key)) none (fun _ => false) =
      (q, .ok result) ∧
    (∃ F, IsLeast {F | Solves {c | c ∈ cs} mainAndRun.keyOf F} F ∧
      callThroughSlotResumed.contents ≤ F) ∧
    (∀ s t, (s, t) ∈ q.copies → ∀ x, q.Holds s x → q.Holds t x) := by
  have hstart : Program.empty.History (mainAndRun.nodes.map (·.key)) .empty [] := .start
  have hslots := (hstart.adds (.intern (.global "callback"))).adds (.intern (.global "argument"))
  have hassigned := (hslots.adds (.assign (.function 1) 0 trivial (by decide))).adds
    (.assign (.function 0) 1 trivial (by decide))
  have hargs : ArgsWithin 2 [some (.slot 1)] := by
    rintro v hv
    obtain rfl := Option.some.inj (List.mem_singleton.mp hv)
    exact Nat.one_lt_two
  have hcall := hassigned.adds (.indirectCall ⟨0, [some (.slot 1)], 1, false⟩ (by decide) hargs)
  have hresumed := (hcall.run none (· = 1)).adds (.copy 1 0 (by cbv) (by cbv))
  obtain ⟨hsound, -, hends⟩ := history_sound_and_closed mainAndRun hresumed
  exact ⟨_, _, _, hresumed, by cbv, by cbv, hsound, (hends none (fun _ => false) _ _ (by cbv)).1⟩

end Flow

end CallGraphs
